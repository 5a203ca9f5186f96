import DjApp.Engine.EngineAdapter

/-! When the engine follows the deck state: the loop its audio path uses and the
position it was last asked for, over every run of deltas. -/

set_option autoImplicit false

namespace DjApp.Engine

open Library
open Library.BinaryRounding (double)
open Client

/-- The loop of a state in samples of a buffer, clamped to its last renderable frame. -/
def expectedLoop (audio : LoadedAudio) : Option LoopPoints → LoopState
  | none => {}
  | some points =>
      ⟨true, min (double (points.inSeconds * audio.sampleRate)) ((audio.numSamples : ℚ) - 1),
        min (double (points.outSeconds * audio.sampleRate)) ((audio.numSamples : ℚ) - 1)⟩

/-- The position asked for last, after one more call; loading asks for the start. -/
def requestAfter (requested : Option ℚ) : EngineCall → Option ℚ
  | .load _ => some 0
  | .seek seconds => some seconds
  | _ => requested

/-- The position a sequence of engine calls asks for last. -/
def requestedPosition (calls : List EngineCall) : Option ℚ := calls.foldl requestAfter none

def LoopFollows (engine : DeckEngine) : Prop :=
  ∀ audio, engine.source.activeBuffer = some audio →
    engine.source.activeLoop = expectedLoop audio engine.state.loop

abbrev Row := Machine.Entry DeckEngine DeckInput (List EngineCall)

/-- After a delta the loop follows the state, and so does the requested position if
the delta carries a track. -/
def Follows (row : Row) : Prop :=
  LoopFollows row.after ∧
    (row.input.delta.deck = row.before.adapter.deck → row.input.delta.trackId.isSome →
      requestedPosition row.output = some row.after.state.positionSeconds)

/-- A delta with a track brings the loop along, or there is none to lose, and brings
the position along, or has it injected, or the stored one is 0 already. -/
def CarriesLoopAndPosition (row : Row) : Prop :=
  row.input.delta.deck = row.before.adapter.deck →
    ∀ trackId, row.input.delta.trackId = some trackId →
      (EngineAdapter.resolve row.input.repository trackId ≠ none →
        row.input.delta.loop.isSome ∨ row.before.state.loop = none) ∧
      (row.input.delta.positionSeconds.isSome ∨
        (row.input.source = .own ∧ row.input.delta.playing = some true) ∨
        row.before.state.positionSeconds = 0)

/-- The part of the source that the loop depends on. -/
structure LoopView where
  activeBuffer : Option LoadedAudio
  messageThreadCurrentBuffer : Option LoadedAudio
  messageThreadSampleRate : ℚ
  activeLoop : LoopState

def BufferPlaybackSource.loopView (source : BufferPlaybackSource) : LoopView :=
  ⟨source.activeBuffer, source.messageThreadCurrentBuffer, source.messageThreadSampleRate,
    source.activeLoop⟩

theorem loopView_load (source : BufferPlaybackSource) (audio : Option LoadedAudio) :
    (source.load audio).loopView = ⟨audio, audio, audio.elim 0 LoadedAudio.sampleRate, {}⟩ := by
  simp [BufferPlaybackSource.loopView, BufferPlaybackSource.load, BufferPlaybackSource.activeLoop,
    BufferPlaybackSource.publishLoop]

theorem loopView_setLoop (source : BufferPlaybackSource) (loop : Option LoopPoints) :
    (source.setLoop loop).loopView =
      { source.loopView with activeLoop := source.loopStateFor loop } := by
  simp only [BufferPlaybackSource.loopView, BufferPlaybackSource.setLoop, activeLoop_publishLoop]
  rfl

def EngineCall.touchesLoop : EngineCall → Bool
  | .load _ | .setLoop _ => true
  | _ => false

theorem loopView_perform {source : BufferPlaybackSource} {call : EngineCall}
    (untouched : call.touchesLoop = false) : (source.perform call).loopView = source.loopView := by
  cases call with
  | load | setLoop => cases untouched
  | play | pause | seek | setGain | setPlaybackRate | setPitchOffsetSemitones | setRepeat => rfl

theorem loopView_foldl {calls : List EngineCall}
    (untouched : ∀ call ∈ calls, call.touchesLoop = false) (source : BufferPlaybackSource) :
    (calls.foldl .perform source).loopView = source.loopView := by
  induction calls generalizing source with
  | nil => rfl
  | cons call rest ih =>
      obtain ⟨first, others⟩ := List.forall_mem_cons.mp untouched
      rw [List.foldl_cons, ih others, loopView_perform first]

theorem loopStateFor_congr {left right : BufferPlaybackSource}
    (same : left.loopView = right.loopView) (loop : Option LoopPoints) :
    left.loopStateFor loop = right.loopStateFor loop := by
  have buffers := congrArg LoopView.messageThreadCurrentBuffer same
  have rates := congrArg LoopView.messageThreadSampleRate same
  simp only [BufferPlaybackSource.loopView] at buffers rates
  simp only [BufferPlaybackSource.loopStateFor, buffers, rates]

/-- The message thread's bookkeeping agrees with the buffer the audio path reads. -/
structure LoopView.Wired (view : LoopView) : Prop where
  buffer : view.messageThreadCurrentBuffer = view.activeBuffer
  sampleRate : view.messageThreadSampleRate = view.activeBuffer.elim 0 LoadedAudio.sampleRate
  positive : ∀ audio, view.activeBuffer = some audio → 0 < audio.sampleRate

theorem loopStateFor_wired {source : BufferPlaybackSource} (wired : source.loopView.Wired)
    {audio : LoadedAudio} (loaded : source.activeBuffer = some audio) (loop : Option LoopPoints) :
    source.loopStateFor loop = expectedLoop audio loop := by
  have buffer : source.messageThreadCurrentBuffer = some audio := wired.buffer.trans loaded
  have sampleRate : source.messageThreadSampleRate = audio.sampleRate := by
    have rate := wired.sampleRate
    simpa [BufferPlaybackSource.loopView, loaded] using rate
  have positive : 0 < audio.sampleRate := wired.positive audio loaded
  cases loop with
  | none => rfl
  | some points =>
      simp [BufferPlaybackSource.loopStateFor, expectedLoop, buffer, sampleRate, positive]

def EngineCall.requestsPosition : EngineCall → Bool
  | .load _ | .seek _ => true
  | _ => false

theorem requestAfter_foldl {calls : List EngineCall}
    (silent : ∀ call ∈ calls, call.requestsPosition = false) (requested : Option ℚ) :
    calls.foldl requestAfter requested = requested := by
  induction calls with
  | nil => rfl
  | cons call rest ih =>
      obtain ⟨first, others⟩ := List.forall_mem_cons.mp silent
      have same : requestAfter requested call = requested := by
        cases call with
        | load | seek => cases first
        | play | pause | setGain | setPlaybackRate | setPitchOffsetSemitones | setLoop
        | setRepeat => rfl
      rw [List.foldl_cons, same, ih others]

namespace EngineAdapter

variable (adapter : EngineAdapter) (repository : AudioRepository) (applied : StateDelta)

def tracked (source : BufferPlaybackSource) : BufferPlaybackSource :=
  (trackCalls repository applied).foldl .perform source

theorem loopView_tracked (source : BufferPlaybackSource) {trackId : String}
    (carried : applied.trackId = some trackId) :
    (tracked repository applied source).loopView =
      ⟨resolve repository trackId, resolve repository trackId,
        (resolve repository trackId).elim 0 LoadedAudio.sampleRate, {}⟩ := by
  simp only [tracked, trackCalls, carried, Option.toList_some, List.map_cons, List.map_nil,
    List.foldl_cons, List.foldl_nil, BufferPlaybackSource.perform]
  exact loopView_load _ _

theorem parameterCalls_untouched : ∀ call ∈ applied.positionSeconds.toList.map EngineCall.seek ++
    adapter.parameterCalls applied, call.touchesLoop = false := by
  intro call member
  simp only [parameterCalls, List.mem_append, List.mem_map] at member
  rcases member with ⟨_, _, rfl⟩ | (⟨_, _, rfl⟩ | ⟨_, _, rfl⟩) | ⟨_, _, rfl⟩ <;> rfl

theorem finalCalls_untouched : ∀ call ∈ applied.repeats.toList.map EngineCall.setRepeat ++
    applied.playing.toList.map (fun playing => if playing then EngineCall.play else .pause),
    call.touchesLoop = false := by
  intro call member
  simp only [List.mem_append, List.mem_map] at member
  rcases member with ⟨_, _, rfl⟩ | ⟨playing, _, rfl⟩
  · rfl
  · cases playing <;> rfl

/-- The loop after all calls of a delta: loading clears it, a carried loop is written. -/
theorem loopView_calls (named : applied.deck = adapter.deck) (source : BufferPlaybackSource) :
    ((adapter.calls repository applied).foldl .perform source).loopView =
      match applied.loop with
      | none => (tracked repository applied source).loopView
      | some loop => { (tracked repository applied source).loopView with
          activeLoop := (tracked repository applied source).loopStateFor loop } := by
  have parameters := loopView_foldl (adapter.parameterCalls_untouched applied)
    (tracked repository applied source)
  simp only [calls, named, ne_eq, not_true_eq_false, ↓reduceIte, List.append_assoc]
  rw [List.foldl_append, ← List.append_assoc, List.foldl_append, List.foldl_append]
  change (List.foldl _ (List.foldl _ (List.foldl _ (tracked repository applied source) _) _)
    _).loopView = _
  rw [loopView_foldl (finalCalls_untouched applied)]
  cases applied.loop with
  | none => exact parameters
  | some loop =>
      simp only [Option.toList_some, List.map_cons, List.map_nil, List.foldl_cons, List.foldl_nil,
        BufferPlaybackSource.perform]
      rw [loopView_setLoop, parameters, loopStateFor_congr parameters]

theorem requestAfter_foldl_parameters (requested : Option ℚ) :
    (adapter.parameterCalls applied ++ applied.loop.toList.map EngineCall.setLoop ++
      applied.repeats.toList.map EngineCall.setRepeat ++ applied.playing.toList.map
        (fun playing => if playing then EngineCall.play else .pause)).foldl requestAfter requested =
      requested := by
  refine requestAfter_foldl (fun call member => ?_) requested
  simp only [parameterCalls, List.mem_append, List.mem_map] at member
  rcases member with
    ((((⟨_, _, rfl⟩ | ⟨_, _, rfl⟩) | ⟨_, _, rfl⟩) | ⟨_, _, rfl⟩) | ⟨_, _, rfl⟩) | ⟨playing, _, rfl⟩
  case inr => cases playing <;> rfl
  all_goals rfl

theorem requestedPosition_calls (named : applied.deck = adapter.deck)
    (carried : applied.trackId.isSome) :
    requestedPosition (adapter.calls repository applied) =
      some (applied.positionSeconds.getD 0) := by
  obtain ⟨trackId, present⟩ := Option.isSome_iff_exists.mp carried
  have ordered : adapter.calls repository applied =
      trackCalls repository applied ++ (applied.positionSeconds.toList.map .seek ++
        (adapter.parameterCalls applied ++ applied.loop.toList.map .setLoop ++
          applied.repeats.toList.map .setRepeat ++ applied.playing.toList.map
            (fun playing => if playing then EngineCall.play else .pause))) := by
    simp only [calls, named, ne_eq, not_true_eq_false, ↓reduceIte, List.append_assoc]
  rw [requestedPosition, ordered, List.foldl_append, List.foldl_append,
    requestAfter_foldl_parameters]
  cases seeks : applied.positionSeconds <;> simp [trackCalls, present, requestAfter]

end EngineAdapter

def AudioRepository.Playable (repository : AudioRepository) : Prop :=
  ∀ trackId audio, repository trackId = some audio → 0 < audio.numSamples ∧ 0 < audio.sampleRate

theorem resolve_playable {repository : AudioRepository} (playable : repository.Playable)
    {trackId : String} {audio : LoadedAudio}
    (resolved : EngineAdapter.resolve repository trackId = some audio) : 0 < audio.sampleRate := by
  unfold EngineAdapter.resolve at resolved
  split at resolved
  · cases resolved
  · exact (playable trackId audio resolved).2

theorem wired_tracked {repository : AudioRepository} (playable : repository.Playable)
    (applied : StateDelta) {source : BufferPlaybackSource} (wired : source.loopView.Wired) :
    (EngineAdapter.tracked repository applied source).loopView.Wired := by
  cases carried : applied.trackId with
  | none => simpa [EngineAdapter.tracked, EngineAdapter.trackCalls, carried] using wired
  | some trackId =>
      rw [EngineAdapter.loopView_tracked _ _ _ carried]
      exact ⟨rfl, rfl, fun audio resolved => resolve_playable playable resolved⟩

theorem step_deck (engine : DeckEngine) (input : DeckInput) :
    (engine.step input).1.adapter.deck = engine.adapter.deck := by
  simp only [DeckEngine.step, StateManager.applyDelta]
  split
  · rename_i manager dropped
    split at dropped <;> cases dropped
    rfl
  · rename_i manager notification announced
    simp only [EngineAdapter.handleDelta, EngineAdapter.analyze]
    repeat' split
    all_goals rfl

/-- The facts about a delta that reaches the deck's own listeners. -/
structure Applied (engine : DeckEngine) (input : DeckInput) (applied : StateDelta) : Prop where
  named : applied.deck = engine.adapter.deck
  trackId : applied.trackId = input.delta.trackId
  loop : applied.loop.isSome = input.delta.loop.isSome
  positionSeconds : applied.positionSeconds.isSome ↔ input.delta.positionSeconds.isSome ∨
    (input.source = .own ∧ input.delta.playing = some true)
  state : (engine.step input).1.state = engine.state.merge applied
  source : (engine.step input).1.source =
    (engine.adapter.calls input.repository applied).foldl .perform engine.source
  calls : (engine.step input).2 = engine.adapter.calls input.repository applied
  adapter : (engine.step input).1.adapter =
    (engine.adapter.handleDelta input.repository applied).1

theorem applied_of_named {engine : DeckEngine} {input : DeckInput}
    (named : input.delta.deck = engine.adapter.deck) (present : input.delta.empty = false) :
    ∃ applied, Applied engine input applied := by
  refine ⟨engine.manager.prepare input.delta input.source, ?_, ?_, ?_, ?_, ?_, ?_, ?_, ?_⟩
  · simp only [StateManager.prepare, StateDelta.withPosition]
    split <;> exact named
  · simp only [StateManager.prepare, StateDelta.withPosition]
    split <;> rfl
  · simp only [StateManager.prepare, StateDelta.withPosition]
    split <;> simp [StateDelta.clamp]
  · simp only [StateManager.prepare, StateDelta.withPosition]
    split
    · rename_i injected
      exact ⟨fun _ => .inr ⟨injected.1, injected.2.1⟩, fun _ => rfl⟩
    · rename_i kept
      simp only [StateDelta.clamp, Option.isSome_map, Option.map_eq_none_iff] at kept ⊢
      constructor
      · exact .inl
      · rintro (carried | ⟨own, starts⟩)
        · exact carried
        · by_contra absent
          exact kept ⟨own, starts, by simpa using absent⟩
  · rw [DeckEngine.state, step_deck]
    simp [DeckEngine.step, StateManager.applyDelta, present, StateManager.getState, named,
      DeckEngine.state]
  · simp [DeckEngine.step, StateManager.applyDelta, present, EngineAdapter.handleDelta]
  · simp [DeckEngine.step, StateManager.applyDelta, present, EngineAdapter.handleDelta]
  · simp [DeckEngine.step, StateManager.applyDelta, present]

/-- A delta of the other deck, or an empty one, leaves this deck alone. -/
theorem step_unnamed {engine : DeckEngine} {input : DeckInput}
    (unnamed : input.delta.deck ≠ engine.adapter.deck ∨ input.delta.empty = true) :
    (engine.step input).1.state = engine.state ∧ (engine.step input).1.source = engine.source ∧
      (engine.step input).1.adapter = engine.adapter := by
  rw [DeckEngine.state, step_deck]
  by_cases dropped : input.delta.empty = true
  · simp [DeckEngine.step, StateManager.applyDelta, dropped, DeckEngine.state]
  · have other : input.delta.deck ≠ engine.adapter.deck := unnamed.resolve_right dropped
    have elsewhere : (engine.manager.prepare input.delta input.source).deck ≠
        engine.adapter.deck := by
      simp only [StateManager.prepare, StateDelta.withPosition]
      split <;> exact other
    simp [DeckEngine.step, StateManager.applyDelta, dropped, StateManager.getState,
      Function.update_of_ne (Ne.symm other), EngineAdapter.handleDelta, EngineAdapter.calls,
      elsewhere, DeckEngine.state]

structure Synced (engine : DeckEngine) : Prop where
  wired : engine.source.loopView.Wired
  follows : LoopFollows engine

theorem expectedLoop_inactive_iff {audio : LoadedAudio} {loop : Option LoopPoints} :
    {} = expectedLoop audio loop ↔ loop = none := by
  cases loop <;> simp [expectedLoop]

/-- The loop follows the state after a delta of this deck unless a loaded track has
cleared a loop that the delta does not carry. -/
theorem loopFollows_iff {engine : DeckEngine} {input : DeckInput} {applied : StateDelta}
    (playable : input.repository.Playable) (synced : Synced engine)
    (step : Applied engine input applied) :
    LoopFollows (engine.step input).1 ↔ ∀ trackId, input.delta.trackId = some trackId →
      EngineAdapter.resolve input.repository trackId ≠ none →
        input.delta.loop.isSome ∨ engine.state.loop = none := by
  have view := EngineAdapter.loopView_calls engine.adapter input.repository applied step.named
    engine.source
  rw [← step.source] at view
  have wired := wired_tracked playable applied synced.wired
  have loopAfter : (engine.step input).1.state.loop = applied.loop.getD engine.state.loop := by
    rw [step.state, PlaybackState.merge]
  have bufferAfter := congrArg LoopView.activeBuffer view
  have activeAfter := congrArg LoopView.activeLoop view
  simp only [BufferPlaybackSource.loopView] at bufferAfter activeAfter
  cases carriedLoop : applied.loop with
  | some loop =>
      have sent : input.delta.loop.isSome = true := by rw [← step.loop, carriedLoop]; rfl
      simp only [carriedLoop] at bufferAfter activeAfter loopAfter
      constructor
      · exact fun _ _ _ _ => .inl sent
      · intro _ audio loadedAfter
        rw [activeAfter, loopAfter, Option.getD_some]
        exact loopStateFor_wired wired (bufferAfter.symm.trans loadedAfter) loop
  | none =>
      have unsent : input.delta.loop.isSome = false := by rw [← step.loop, carriedLoop]; rfl
      simp only [carriedLoop, Option.getD_none] at bufferAfter activeAfter loopAfter
      rw [LoopFollows, bufferAfter, activeAfter, loopAfter]
      simp only [unsent, Bool.false_eq_true, false_or]
      cases carried : input.delta.trackId with
      | none =>
          have kept : EngineAdapter.tracked input.repository applied engine.source =
              engine.source := by
            simp [EngineAdapter.tracked, EngineAdapter.trackCalls, step.trackId, carried]
          rw [kept]
          exact ⟨fun _ => by simp, fun _ => synced.follows⟩
      | some trackId =>
          have swapped := EngineAdapter.loopView_tracked input.repository applied engine.source
            (step.trackId.trans carried)
          have buffer := congrArg LoopView.activeBuffer swapped
          have cleared := congrArg LoopView.activeLoop swapped
          simp only [BufferPlaybackSource.loopView] at buffer cleared
          rw [buffer, cleared]
          constructor
          · rintro follows _ ⟨⟩ resolved
            obtain ⟨audio, found⟩ := Option.ne_none_iff_exists'.mp resolved
            exact expectedLoop_inactive_iff.mp (follows audio found)
          · intro lost audio found
            exact expectedLoop_inactive_iff.mpr (lost trackId rfl (by simp [found]))

/-- The position asked for is the one of the state unless a track comes without one. -/
theorem requested_iff {engine : DeckEngine} {input : DeckInput} {applied : StateDelta}
    (step : Applied engine input applied) :
    (input.delta.trackId.isSome → requestedPosition (engine.step input).2 =
        some (engine.step input).1.state.positionSeconds) ↔
      ∀ trackId, input.delta.trackId = some trackId → input.delta.positionSeconds.isSome ∨
        (input.source = .own ∧ input.delta.playing = some true) ∨
        engine.state.positionSeconds = 0 := by
  cases carried : input.delta.trackId with
  | none => simp
  | some trackId =>
      have requested := EngineAdapter.requestedPosition_calls engine.adapter input.repository applied
        step.named (by rw [step.trackId, carried]; rfl)
      have position : (engine.step input).1.state.positionSeconds =
          applied.positionSeconds.getD engine.state.positionSeconds := by
        rw [step.state, PlaybackState.merge]
      rw [step.calls, requested, position, ← or_assoc, ← step.positionSeconds]
      cases applied.positionSeconds <;> simp [eq_comm]

theorem follows_entry_iff {engine : DeckEngine} {input : DeckInput}
    (playable : input.repository.Playable) (synced : Synced engine) :
    Follows (Machine.entry DeckEngine.step engine input) ↔
      CarriesLoopAndPosition (Machine.entry DeckEngine.step engine input) := by
  by_cases reaches : input.delta.deck = engine.adapter.deck ∧ input.delta.empty = false
  · obtain ⟨applied, step⟩ := applied_of_named reaches.1 reaches.2
    have loops := loopFollows_iff playable synced step
    have requests := requested_iff step
    simp only [Follows, CarriesLoopAndPosition, Machine.entry, reaches.1, forall_const]
    rw [loops, requests]
    exact ⟨fun both trackId carried => ⟨both.1 trackId carried, both.2 trackId carried⟩,
      fun each => ⟨fun trackId carried => (each trackId carried).1,
        fun trackId carried => (each trackId carried).2⟩⟩
  · obtain ⟨sameState, sameSource, _⟩ := @step_unnamed engine input (by
      by_cases named : input.delta.deck = engine.adapter.deck
      · exact .inr (by simpa [named] using reaches)
      · exact .inl named)
    have silent : input.delta.deck = engine.adapter.deck → input.delta.trackId = none := by
      intro named
      have dropped : input.delta.empty = true := by simpa [named] using reaches
      simp only [StateDelta.empty, Bool.and_eq_true, Option.isNone_iff_eq_none] at dropped
      exact dropped.1.1.1.1.1.1.1
    constructor
    · intro _ named trackId carried
      have absent := silent named
      simp only [Machine.entry, absent, reduceCtorEq] at carried
    · intro _
      refine ⟨?_, fun named carried => ?_⟩
      · simp only [LoopFollows, Machine.entry, sameState, sameSource]
        exact synced.follows
      · simp [Machine.entry, silent named] at carried

theorem synced_step {engine : DeckEngine} {input : DeckInput}
    (playable : input.repository.Playable) (synced : Synced engine)
    (follows : LoopFollows (engine.step input).1) : Synced (engine.step input).1 := by
  refine ⟨?_, follows⟩
  by_cases reaches : input.delta.deck = engine.adapter.deck ∧ input.delta.empty = false
  · obtain ⟨applied, step⟩ := applied_of_named reaches.1 reaches.2
    have wired := wired_tracked playable applied synced.wired
    rw [step.source, EngineAdapter.loopView_calls _ _ _ step.named]
    cases applied.loop with
    | none => exact wired
    | some loop => exact ⟨wired.buffer, wired.sampleRate, wired.positive⟩
  · have unnamed : input.delta.deck ≠ engine.adapter.deck ∨ input.delta.empty = true := by
      by_cases named : input.delta.deck = engine.adapter.deck
      · exact .inr (by simpa [named] using reaches)
      · exact .inl named
    rw [(step_unnamed unnamed).2.1]
    exact synced.wired

theorem synced_initial (adapter : EngineAdapter) : Synced (DeckEngine.initial adapter) where
  wired := ⟨rfl, rfl, by simp [DeckEngine.initial, BufferPlaybackSource.initial, BufferPlaybackSource.loopView]⟩
  follows := by simp [LoopFollows, DeckEngine.initial, BufferPlaybackSource.initial]

/-- The engine follows the deck state after every delta of a run exactly if every
delta with a track carries the loop and the position it would otherwise lose. -/
theorem engine_follows_iff (adapter : EngineAdapter) (inputs : List DeckInput)
    (playable : ∀ input ∈ inputs, input.repository.Playable) :
    (∀ row ∈ Machine.trace DeckEngine.step (DeckEngine.initial adapter) inputs, Follows row) ↔
      ∀ row ∈ Machine.trace DeckEngine.step (DeckEngine.initial adapter) inputs,
        CarriesLoopAndPosition row :=
  Machine.trace_forall_iff DeckEngine.step (·.repository.Playable) Synced Follows
    CarriesLoopAndPosition
    (fun _ _ playable synced => follows_entry_iff playable synced)
    (fun _ _ playable synced follows => synced_step playable synced follows.1)
    (synced_initial adapter) playable

/-- A library in which every track is ten seconds long. -/
def shortTracks : AudioRepository := fun _ => some (.silence 100 10)

theorem shortTracks_playable : shortTracks.Playable := by
  intro trackId audio found
  obtain rfl := Option.some.inj found
  norm_num [LoadedAudio.silence]

/-- A track is loaded and looped, then the other side loads a second one that plays in a loop of
its own; the last delta is for the other deck. -/
def reloads : List DeckInput :=
  [⟨loadTrackDelta .A "first", .own, shortTracks⟩,
    ⟨{ deck := .A, loop := some (some ⟨1, 2⟩) }, .own, shortTracks⟩,
    ⟨{ deck := .A, trackId := some "second", playing := some true, positionSeconds := some (7 / 2),
       loop := some (some ⟨3, 5⟩) }, .remote, shortTracks⟩,
    ⟨loadTrackDelta .B "third", .remote, shortTracks⟩]

theorem engine_follows_reloads :
    (∀ row ∈ Machine.trace DeckEngine.step (DeckEngine.initial { deck := .A }) reloads,
      Follows row) ∧
    (Machine.run DeckEngine.step (DeckEngine.initial { deck := .A }) reloads).source.activeLoop =
      ⟨true, 30, 50⟩ := by
  refine ⟨(engine_follows_iff { deck := .A } reloads ?_).mpr ?_, by decide +kernel⟩
  · simp [reloads, shortTracks_playable]
  intro row member
  simp only [reloads, Machine.trace, List.mem_cons, List.not_mem_nil, or_false] at member
  obtain rfl | rfl | rfl | rfl := member
  · exact fun _ _ _ => ⟨fun _ => .inr rfl, .inl rfl⟩
  · intro _ trackId named
    cases named
  · exact fun _ _ _ => ⟨fun _ => .inl rfl, .inl rfl⟩
  · exact fun other => absurd other (by decide +kernel)

/-- Loading another track over a loop leaves the loop in the state alone. -/
theorem engine_follows_false :
    ¬ ∀ (adapter : EngineAdapter) (inputs : List DeckInput),
      (∀ input ∈ inputs, input.repository.Playable) →
      ∀ row ∈ Machine.trace DeckEngine.step (DeckEngine.initial adapter) inputs, Follows row := by
  intro follows
  have run := follows { deck := .A }
    [⟨loadTrackDelta .A "first", .own, shortTracks⟩,
      ⟨{ deck := .A, loop := some (some ⟨1, 2⟩) }, .own, shortTracks⟩,
      ⟨loadTrackDelta .A "second", .own, shortTracks⟩] (by simp [shortTracks_playable])
  obtain ⟨loops, _⟩ := run _ (List.mem_cons_of_mem _ (List.mem_cons_of_mem _ List.mem_cons_self))
  have active := congrArg LoopState.active (loops (.silence 100 10) rfl)
  exact absurd active (by decide +kernel)

end DjApp.Engine
