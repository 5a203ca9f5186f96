import DjApp.Engine.EngineAdapterProperties
import DjApp.Engine.Mixer

/-! The engine parameters, the loaded track and the beat grid of each deck mirror the
deck state, however deltas and crossfader moves interleave. -/

set_option autoImplicit false

namespace DjApp.Engine

open Client

/-- The part of the engine that a deck state determines. -/
@[ext] structure Parameters where
  gain : Single
  rate : Single
  pitchOffsetSemitones : Single
  repeats : Bool
  playing : Bool
  activeBuffer : Option LoadedAudio

def BufferPlaybackSource.parameters (source : BufferPlaybackSource) : Parameters :=
  ⟨source.gain, source.rate, source.pitchOffsetSemitones, source.repeats, source.playing,
    source.activeBuffer⟩

/-- The meaning of a call for these fields alone. -/
def Parameters.perform (parameters : Parameters) : EngineCall → Parameters
  | .load audio => { parameters with activeBuffer := audio }
  | .play => { parameters with playing := true }
  | .pause => { parameters with playing := false }
  | .seek _ | .setLoop _ => parameters
  | .setGain linearGain => { parameters with gain := linearGain }
  | .setPlaybackRate rate => { parameters with rate := rate }
  | .setPitchOffsetSemitones semitones => { parameters with pitchOffsetSemitones := semitones }
  | .setRepeat repeats => { parameters with repeats := repeats }

theorem parameters_perform (source : BufferPlaybackSource) (call : EngineCall) :
    (source.perform call).parameters = source.parameters.perform call := by
  cases call <;> rfl

theorem parameters_foldl (calls : List EngineCall) (source : BufferPlaybackSource) :
    (calls.foldl .perform source).parameters = calls.foldl .perform source.parameters := by
  induction calls generalizing source with
  | nil => rfl
  | cons call rest ih =>
      rw [List.foldl_cons, ih, parameters_perform, List.foldl_cons]

theorem foldl_toList {State Value : Type} (change : State → Value → State) (field : Option Value)
    (state : State) : field.toList.foldl change state = field.elim state (change state) := by
  cases field <;> rfl

theorem elim_same {Value Result : Type} (field : Option Value) (result : Result) :
    (field.elim result fun _ => result) = result := by
  cases field <;> rfl

/-- The parameters after all calls of a delta: each field that it carries is set. -/
theorem parameters_calls (adapter : EngineAdapter) (repository : AudioRepository)
    {applied : StateDelta} (named : applied.deck = adapter.deck) (source : BufferPlaybackSource) :
    ((adapter.calls repository applied).foldl .perform source).parameters =
      { gain := applied.gain.elim source.gain adapter.effectiveGain
        rate := applied.playbackRate.getD source.rate
        pitchOffsetSemitones :=
          applied.pitchOffsetSemitones.getD source.pitchOffsetSemitones
        repeats := applied.repeats.getD source.repeats
        playing := applied.playing.getD source.playing
        activeBuffer :=
          applied.trackId.elim source.activeBuffer (EngineAdapter.resolve repository) } := by
  have playing : ∀ (parameters : Parameters) (playing : Bool),
      parameters.perform (if playing then .play else .pause) =
        { parameters with playing := playing } := by
    intro parameters playing
    cases playing <;> rfl
  rw [parameters_foldl]
  simp only [EngineAdapter.calls, named, ne_eq, not_true_eq_false, ↓reduceIte,
    EngineAdapter.trackCalls, EngineAdapter.parameterCalls, List.foldl_append, List.foldl_map,
    foldl_toList, playing]
  -- Each field is changed at most once: by the call for the delta's field.
  apply Parameters.ext
  case gain =>
    simp only [← Option.elim_comp Parameters.gain, Parameters.perform, elim_same]
    rfl
  case rate =>
    simp only [← Option.elim_comp Parameters.rate, Parameters.perform, elim_same]
    cases applied.playbackRate <;> rfl
  case pitchOffsetSemitones =>
    simp only [← Option.elim_comp Parameters.pitchOffsetSemitones, Parameters.perform, elim_same]
    cases applied.pitchOffsetSemitones <;> rfl
  case repeats =>
    simp only [← Option.elim_comp Parameters.repeats, Parameters.perform, elim_same]
    cases applied.repeats <;> rfl
  case playing =>
    simp only [← Option.elim_comp Parameters.playing, Parameters.perform, elim_same]
    cases applied.playing <;> rfl
  case activeBuffer =>
    simp only [← Option.elim_comp Parameters.activeBuffer, Parameters.perform, elim_same]
    rfl

section Mirroring

variable (equalPowerCrossfade : Single → CrossfaderGains) (detector : LoadedAudio → BeatGrid)
  (repository : AudioRepository) (crossfader : CrossfaderState)

/-- An adapter and its engine as the deck state, the repository and the crossfader
have them. -/
structure Mirrors (adapter : EngineAdapter) (state : PlaybackState)
    (source : BufferPlaybackSource) : Prop where
  attached : adapter.crossfader = some (equalPowerCrossfade crossfader.position)
  analyzes : adapter.beatDetector = some detector
  gain : source.gain = adapter.effectiveGain state.gain
  rate : source.rate = state.playbackRate
  pitchOffsetSemitones : source.pitchOffsetSemitones = state.pitchOffsetSemitones
  repeats : source.repeats = state.repeats
  loaded : source.activeBuffer = EngineAdapter.resolve repository state.trackId
  grid : adapter.cachedBeatGrid = source.activeBuffer.elim {} detector
  -- The key of the cache is the track of the state, and empty while nothing is loaded.
  analyzed : adapter.lastAnalyzedTrackId = source.activeBuffer.elim "" fun _ => state.trackId

variable {equalPowerCrossfade detector repository crossfader} {adapter : EngineAdapter}
  {state : PlaybackState} {source : BufferPlaybackSource}

theorem resolve_ne_empty {trackId : String} {audio : LoadedAudio}
    (resolved : EngineAdapter.resolve repository trackId = some audio) : trackId ≠ "" := by
  intro empty
  simp [EngineAdapter.resolve, empty] at resolved

/-- The grid of a track is that of its buffer, whether or not it is analysed again. -/
theorem analyze_cachedBeatGrid
    (mirrors : Mirrors equalPowerCrossfade detector repository crossfader adapter state source)
    (trackId : String) :
    let loaded := EngineAdapter.resolve repository trackId
    (adapter.analyze trackId loaded).cachedBeatGrid = loaded.elim {} detector ∧
      (adapter.analyze trackId loaded).lastAnalyzedTrackId = loaded.elim "" fun _ => trackId := by
  intro loaded
  cases resolved : loaded with
  | none => exact ⟨rfl, rfl⟩
  | some audio =>
      have found : EngineAdapter.resolve repository trackId = some audio := resolved
      simp only [EngineAdapter.analyze, mirrors.analyzes]
      by_cases again : trackId = adapter.lastAnalyzedTrackId
      · -- The same id means the same buffer, since the repository has not changed.
        have key := mirrors.analyzed
        have grid := mirrors.grid
        rw [mirrors.loaded] at key grid
        cases before : EngineAdapter.resolve repository state.trackId with
        | none =>
            rw [before] at key
            exact absurd (again.trans key) (resolve_ne_empty found)
        | some earlier =>
            rw [before, Option.elim_some] at key grid
            have same : earlier = audio := by
              rw [again, key, before] at found
              exact Option.some.inj found
            rw [if_pos again, grid, same]
            exact ⟨rfl, again.symm⟩
      · rw [if_neg again]
        exact ⟨rfl, rfl⟩

theorem handleDelta_attached (adapter : EngineAdapter) (applied : StateDelta) :
    (adapter.handleDelta repository applied).1.deck = adapter.deck ∧
      (adapter.handleDelta repository applied).1.crossfader = adapter.crossfader ∧
      (adapter.handleDelta repository applied).1.beatDetector = adapter.beatDetector := by
  simp only [EngineAdapter.handleDelta, EngineAdapter.analyze]
  repeat' split
  all_goals exact ⟨rfl, rfl, rfl⟩

theorem handleDelta_grid (adapter : EngineAdapter) {applied : StateDelta}
    (named : applied.deck = adapter.deck) :
    let analyzed := applied.trackId.elim adapter fun trackId =>
      adapter.analyze trackId (EngineAdapter.resolve repository trackId)
    (adapter.handleDelta repository applied).1.cachedBeatGrid = analyzed.cachedBeatGrid ∧
      (adapter.handleDelta repository applied).1.lastAnalyzedTrackId =
        analyzed.lastAnalyzedTrackId := by
  simp only [EngineAdapter.handleDelta, named, ne_eq, not_true_eq_false, ↓reduceIte]
  cases applied.trackId <;> exact ⟨rfl, rfl⟩

theorem effectiveGain_congr {left right : EngineAdapter} (deck : left.deck = right.deck)
    (crossfader : left.crossfader = right.crossfader) :
    left.effectiveGain = right.effectiveGain := by
  funext gain
  simp only [EngineAdapter.effectiveGain, deck, crossfader]

/-- A delta of the deck is handed to its adapter and merged into its state. -/
theorem Mirrors.handle
    (mirrors : Mirrors equalPowerCrossfade detector repository crossfader adapter state source)
    {applied : StateDelta} (named : applied.deck = adapter.deck) :
    Mirrors equalPowerCrossfade detector repository crossfader
      (adapter.handleDelta repository applied).1 (state.merge applied)
      ((adapter.calls repository applied).foldl .perform source) := by
  have parameters := parameters_calls adapter repository named source
  obtain ⟨deck, attached, analyzes⟩ := @handleDelta_attached repository adapter applied
  obtain ⟨grid, analyzed⟩ := @handleDelta_grid repository adapter applied named
  have buffer := congrArg Parameters.activeBuffer parameters
  simp only [BufferPlaybackSource.parameters] at buffer
  constructor
  · exact attached.trans mirrors.attached
  · exact analyzes.trans mirrors.analyzes
  · rw [effectiveGain_congr deck attached]
    apply (congrArg Parameters.gain parameters).trans
    rw [mirrors.gain, PlaybackState.merge]
    cases applied.gain <;> rfl
  · apply (congrArg Parameters.rate parameters).trans
    rw [mirrors.rate, PlaybackState.merge]
  · apply (congrArg Parameters.pitchOffsetSemitones parameters).trans
    rw [mirrors.pitchOffsetSemitones, PlaybackState.merge]
  · apply (congrArg Parameters.repeats parameters).trans
    rw [mirrors.repeats, PlaybackState.merge]
  · rw [buffer, mirrors.loaded, PlaybackState.merge]
    cases applied.trackId <;> rfl
  · rw [buffer, grid]
    cases applied.trackId with
    | none => exact mirrors.grid
    | some trackId => exact (analyze_cachedBeatGrid mirrors trackId).1
  · rw [buffer, analyzed, PlaybackState.merge]
    cases applied.trackId with
    | none => exact mirrors.analyzed
    | some trackId => exact (analyze_cachedBeatGrid mirrors trackId).2

/-- The crossfader moves, and the gain is pushed anew unless the position is the same. -/
theorem Mirrors.move
    (mirrors : Mirrors equalPowerCrossfade detector repository crossfader adapter state source)
    (moved : CrossfaderState) :
    Mirrors equalPowerCrossfade detector repository moved
      (adapter.reading equalPowerCrossfade moved) state
      (source.perform ((adapter.reading equalPowerCrossfade moved).pushEffectiveGain state.gain)) :=
  ⟨rfl, mirrors.analyzes, rfl, mirrors.rate, mirrors.pitchOffsetSemitones, mirrors.repeats,
    mirrors.loaded, mirrors.grid, mirrors.analyzed⟩

theorem mirrors_step {engine : DeckEngine}
    (mirrors : Mirrors equalPowerCrossfade detector repository crossfader engine.adapter
      engine.state engine.source) (delta : StateDelta) (cause : DeltaSource) :
    let after := (engine.step ⟨delta, cause, repository⟩).1
    Mirrors equalPowerCrossfade detector repository crossfader after.adapter after.state
      after.source := by
  intro after
  by_cases reaches : delta.deck = engine.adapter.deck ∧ delta.empty = false
  · obtain ⟨applied, step⟩ :=
      @applied_of_named engine ⟨delta, cause, repository⟩ reaches.1 reaches.2
    rw [step.adapter, step.state, step.source]
    exact mirrors.handle step.named
  · have unnamed : delta.deck ≠ engine.adapter.deck ∨ delta.empty = true := by
      by_cases named : delta.deck = engine.adapter.deck
      · exact .inr (by simpa [named] using reaches)
      · exact .inl named
    obtain ⟨state, source, adapter⟩ := @step_unnamed engine ⟨delta, cause, repository⟩ unnamed
    rw [adapter, state, source]
    exact mirrors

end Mirroring

namespace Mixer

variable {equalPowerCrossfade : Single → CrossfaderGains} {detector : LoadedAudio → BeatGrid}
  {repository : AudioRepository} {mixer : Mixer}

/-- Every deck's adapter is its own, and its engine mirrors the state. -/
structure Mirroring (equalPowerCrossfade : Single → CrossfaderGains)
    (detector : LoadedAudio → BeatGrid) (repository : AudioRepository) (mixer : Mixer) : Prop where
  own : ∀ deck, (mixer.adapters deck).deck = deck
  mirrors : ∀ deck, Mirrors equalPowerCrossfade detector repository mixer.crossfader
    (mixer.deckEngine deck).adapter (mixer.deckEngine deck).state (mixer.deckEngine deck).source

/-- The mixer once its crossfader and its beat detector are attached. -/
def attached (equalPowerCrossfade : Single → CrossfaderGains) (detector : LoadedAudio → BeatGrid)
    (crossfader : CrossfaderState) : Mixer :=
  ((initial crossfader).attachCrossfader equalPowerCrossfade).attachBeatDetector detector

theorem mirroring_attached (crossfader : CrossfaderState) :
    Mirroring equalPowerCrossfade detector repository
      (attached equalPowerCrossfade detector crossfader) :=
  ⟨fun _ => rfl, fun _ => ⟨rfl, rfl, rfl, rfl, rfl, rfl, rfl, rfl, rfl⟩⟩

theorem Mirroring.applyDelta (mirroring : Mirroring equalPowerCrossfade detector repository mixer)
    (delta : StateDelta) (source : DeltaSource) :
    Mirroring equalPowerCrossfade detector repository
      (mixer.applyDelta repository delta source) := by
  have crossfader : (mixer.applyDelta repository delta source).crossfader = mixer.crossfader := by
    unfold Mixer.applyDelta
    split <;> rfl
  have each := deckEngine_applyDelta repository mixer delta source
  constructor
  · intro deck
    apply (congrArg (·.adapter.deck) (each deck)).trans
    rw [step_deck]
    exact mirroring.own deck
  · intro deck
    rw [crossfader, each deck]
    exact mirrors_step (mirroring.mirrors deck) delta source

theorem Mirroring.setCrossfader (mirroring : Mirroring equalPowerCrossfade detector repository mixer)
    (position : Single) :
    Mirroring equalPowerCrossfade detector repository
      (mixer.setCrossfader equalPowerCrossfade position) := by
  by_cases same : position.clamp (.ofDouble 0) (.ofDouble 1) = mixer.crossfader.position
  · simp only [Mixer.setCrossfader, CrossfaderState.setPosition, same, ↓reduceIte,
      Bool.false_eq_true]
    refine ⟨mirroring.own, fun deck => ?_⟩
    -- Each adapter reads the position that it has read already.
    have reading : (mixer.adapters deck).reading equalPowerCrossfade mixer.crossfader =
        mixer.adapters deck := by
      have attached : (mixer.adapters deck).crossfader =
          some (equalPowerCrossfade mixer.crossfader.position) := (mirroring.mirrors deck).attached
      rw [EngineAdapter.reading, ← attached]
    simp only [deckEngine, DeckEngine.state, reading]
    exact mirroring.mirrors deck
  · simp only [Mixer.setCrossfader, CrossfaderState.setPosition, same, ↓reduceIte]
    refine ⟨mirroring.own, fun deck => ?_⟩
    have moved := (mirroring.mirrors deck).move ⟨_, (clamp_unit position).1, (clamp_unit position).2⟩
    have own := mirroring.own deck
    simp only [deckEngine, DeckEngine.state, own] at moved
    simp only [deckEngine, DeckEngine.state, pushGains, EngineAdapter.reading, own] at moved ⊢
    exact moved

theorem Mirroring.step (mirroring : Mirroring equalPowerCrossfade detector repository mixer)
    (event : MixerEvent) :
    Mirroring equalPowerCrossfade detector repository
      (mixer.step equalPowerCrossfade repository event) := by
  cases event with
  | delta delta source => exact mirroring.applyDelta delta source
  | crossfade position => exact mirroring.setCrossfader position

end Mixer

/-- Gain, rate, pitch, repeat, the loaded track and the beat grid of each deck mirror the
deck state after every run of deltas and crossfader moves. The track is what the repository
has for the id of the state, or none for the empty id. -/
theorem engine_mirrors_state (equalPowerCrossfade : Single → CrossfaderGains)
    (detector : LoadedAudio → BeatGrid) (repository : AudioRepository)
    (crossfader : CrossfaderState) (events : List MixerEvent) (deck : DeckId) :
    let mixer := events.foldl (Mixer.step equalPowerCrossfade repository)
      (Mixer.attached equalPowerCrossfade detector crossfader)
    let state := mixer.manager.getState deck
    let source := mixer.sources deck
    let multiplier := (equalPowerCrossfade mixer.crossfader.position).multiplier deck
    source.gain = .ofDouble (state.gain.value * multiplier.value) ∧
      source.rate = state.playbackRate ∧
      source.pitchOffsetSemitones = state.pitchOffsetSemitones ∧
      source.repeats = state.repeats ∧
      source.activeBuffer = (if state.trackId = "" then none else repository state.trackId) ∧
      (mixer.adapters deck).currentBeatGrid = source.activeBuffer.elim {} detector := by
  intro mixer state source multiplier
  have mirroring : mixer.Mirroring equalPowerCrossfade detector repository :=
    List.foldlRecOn events _ (Mixer.mirroring_attached crossfader)
      fun _ mirroring event _ => mirroring.step event
  have own := mirroring.own deck
  have mirrors := mirroring.mirrors deck
  have shown : (mixer.deckEngine deck).state = state :=
    congrArg mixer.manager.getState own
  rw [shown] at mirrors
  refine ⟨mirrors.gain.trans ?_, mirrors.rate, mirrors.pitchOffsetSemitones, mirrors.repeats,
    mirrors.loaded, mirrors.grid⟩
  have reading : (mixer.adapters deck).crossfader =
      some (equalPowerCrossfade mixer.crossfader.position) := mirrors.attached
  simp only [Mixer.deckEngine, EngineAdapter.effectiveGain, reading, own]
  rfl

end DjApp.Engine
