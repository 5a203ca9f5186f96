import DjApp.Client.DeckRules
import DjApp.Client.LocalFileRepository
import DjApp.Engine.PlayedOut

/-! The play button: a deck that has played its track to the end starts it over. -/

set_option autoImplicit false

namespace DjApp.Client

open Library
open Library.BinaryRounding (double)
open Engine (AudioRepository EngineAdapter EngineCall LoadedAudio Playable Playback PlaybackEvent
  PlayedOut Steady Suits)

namespace Player

variable (getTrackMetadata : String → Option TrackMetadata) (player : Player) (deck : DeckId)

/-- An engine that has stopped by itself stands at the end of its track, or up to half a second
before it. -/
def computeResumePositionSeconds : ℚ :=
  let resumePosition := (player.decks deck).getCurrentPosition
  let duration := (getTrackMetadata
    (player.app.component.stateManager.getState deck).trackId).elim 0 (·.durationSeconds)
  if 0 < duration ∧ (player.decks deck).isPlaying = false ∧
      double (duration - 1 / 2) ≤ resumePosition then 0
  else resumePosition

/-- The delta of a click on the deck's play button. -/
def togglePlayPause : StateDelta :=
  if (player.app.component.stateManager.getState deck).playing then
    { deck, playing := some false }
  else
    { deck, playing := some true
      positionSeconds := some (player.computeResumePositionSeconds getTrackMetadata deck) }

end Player

section Calls

variable {repository : AudioRepository} {outputLatencyFrames : ℚ → ℕ}

/-- The calls that a delta makes are for its own fields. -/
def StateDelta.Licenses (repository : AudioRepository) (applied : StateDelta) : EngineCall → Prop
  | .load audio => ∃ trackId, applied.trackId = some trackId ∧
      audio = EngineAdapter.resolve repository trackId
  | .seek seconds => applied.positionSeconds = some seconds
  | .setPlaybackRate rate => applied.playbackRate = some rate
  | .setLoop loop => applied.loop = some loop
  | .play => applied.playing = some true
  | .pause => applied.playing = some false
  | .setGain _ | .setPitchOffsetSemitones _ | .setRepeat _ => True

theorem licenses_of_mem {adapter : EngineAdapter} {applied : StateDelta} {call : EngineCall}
    (member : call ∈ adapter.calls repository applied) : applied.Licenses repository call := by
  unfold EngineAdapter.calls at member
  split at member
  · cases member
  simp only [EngineAdapter.trackCalls, EngineAdapter.parameterCalls, List.mem_append, List.mem_map,
    Option.mem_toList] at member
  rcases member with (((((⟨trackId, carried, rfl⟩ | ⟨seconds, carried, rfl⟩) |
    ((⟨_, _, rfl⟩ | ⟨rate, carried, rfl⟩) | ⟨_, _, rfl⟩)) | ⟨loop, carried, rfl⟩) |
    ⟨_, _, rfl⟩) | ⟨playing, carried, rfl⟩)
  · exact ⟨trackId, carried, rfl⟩
  · exact carried
  · trivial
  · exact carried
  · trivial
  · exact carried
  · trivial
  · cases playing with
    | true => exact carried
    | false => exact carried

theorem foldl_keeps (kept : Playback → Prop) {calls : List EngineCall}
    (each : ∀ call ∈ calls, ∀ playback, kept playback →
      kept (Playback.step double outputLatencyFrames playback (.call call)).1)
    {playback : Playback} (holds : kept playback) :
    kept { playback with source := calls.foldl .perform playback.source } := by
  induction calls generalizing playback with
  | nil => exact holds
  | cons call rest ih =>
      obtain ⟨first, later⟩ := List.forall_mem_cons.mp each
      exact ih later (first playback holds)

end Calls

section Followed

variable {repository : AudioRepository} {outputLatencyFrames : ℚ → ℕ} {longest : ℕ}

/-- What every run keeps between the state of a deck and its engine. -/
structure Followed (repository : AudioRepository) (outputLatencyFrames : ℚ → ℕ) (longest : ℕ)
    (state : PlaybackState) (player : DeckPlayer) : Prop where
  inRange : state.InRange
  steady : Steady outputLatencyFrames longest player.playback
  track : player.source.activeBuffer = EngineAdapter.resolve repository state.trackId

theorem followed_initial (unprepared : outputLatencyFrames 0 ≤ longest) (deck : DeckId) :
    Followed repository outputLatencyFrames longest {} { adapter := { deck } } :=
  ⟨inRange_default, Engine.steady_initial unprepared, (if_pos rfl).symm⟩

/-- A deck that is at the end of its track, whatever its state. -/
def Ended (_ : PlaybackState) (player : DeckPlayer) : Prop := PlayedOut player.playback

theorem suitable_of_licenses (playable : ∀ trackId audio, repository trackId = some audio →
      Playable audio) {applied : StateDelta} (inRange : applied.InRange) {call : EngineCall}
    (licenses : applied.Licenses repository call) :
    PlaybackEvent.Suitable outputLatencyFrames longest (.call call) := by
  cases call with
  | load loaded =>
      obtain ⟨trackId, _, rfl⟩ := licenses
      cases resolved : EngineAdapter.resolve repository trackId with
      | none => trivial
      | some audio =>
          unfold EngineAdapter.resolve at resolved
          split at resolved
          · cases resolved
          · exact playable trackId audio resolved
  | seek seconds => exact (inRange.positionSeconds seconds licenses).1
  | setPlaybackRate rate =>
      obtain ⟨slowest, fastest⟩ := inRange.playbackRate rate licenses
      exact ⟨by linarith, fastest⟩
  | setLoop loop =>
      cases loop with
      | none => trivial
      | some points => exact (inRange.loop points licenses).start
  | play | pause | setGain | setPitchOffsetSemitones | setRepeat => trivial

theorem keeps_followed (playable : ∀ trackId audio, repository trackId = some audio →
      Playable audio) (delta : StateDelta) :
    delta.Keeps repository (Followed repository outputLatencyFrames longest) := by
  intro now source state player named followed applied newState
  have inRange : applied.InRange := (inRange_clamp delta).withPosition followed.inRange source
  have own : applied.deck = player.adapter.deck := by
    rw [named]
    simp only [applied, StateDelta.withPosition]
    split <;> rfl
  refine ⟨followed.inRange.merge inRange, ?_, ?_⟩
  · refine @foldl_keeps outputLatencyFrames (Steady outputLatencyFrames longest) _ ?_ _ followed.steady
    intro call member each steady
    exact steady.step (suitable_of_licenses playable inRange (licenses_of_mem member))
  · have loaded := congrArg Engine.Parameters.activeBuffer
      (Engine.parameters_calls player.adapter repository own player.source)
    refine loaded.trans ?_
    simp only [newState, PlaybackState.merge]
    cases applied.trackId with
    | none => exact followed.track
    | some trackId => rfl

/-- A delta that moves its deck, or starts it. -/
def StateDelta.Moves (delta : StateDelta) : Prop :=
  delta.trackId.isSome = true ∨ delta.positionSeconds.isSome = true ∨ delta.playing = some true

theorem keeps_playedOut {delta : StateDelta} (still : ¬ delta.Moves) :
    delta.Keeps repository Ended := by
  intro now source state player _ ended applied newState
  obtain ⟨untracked, unplaced, idle⟩ := not_or.mp still |>.imp_right not_or.mp
  have asIs : applied = delta.clamp := by
    simp only [applied, StateDelta.withPosition]
    exact if_neg fun starts => idle starts.2.1
  refine @foldl_keeps (fun _ => 0) PlayedOut _ ?_ _ ended
  intro call member each ended
  have licenses := licenses_of_mem member
  rw [asIs] at licenses
  apply ended.step
  cases call with
  | load =>
      obtain ⟨trackId, carried, _⟩ := licenses
      exact untracked (by simpa [StateDelta.clamp] using Option.isSome_of_eq_some carried)
  | seek =>
      have carried := Option.isSome_of_eq_some licenses
      exact unplaced (by simpa [StateDelta.clamp] using carried)
  | play => exact idle licenses
  | pause | setGain | setPlaybackRate | setPitchOffsetSemitones | setLoop | setRepeat => trivial

end Followed

/-- The catalogue as its files are: they can be played, and are as long as they were listed. -/
structure Listed (getTrackMetadata : String → Option TrackMetadata)
    (repository : AudioRepository) : Prop where
  playable : ∀ trackId audio, repository trackId = some audio → Playable audio
  duration : ∀ trackId audio, repository trackId = some audio →
    (getTrackMetadata trackId).map (·.durationSeconds) = some audio.durationSeconds

section Presses

variable {getTrackMetadata : String → Option TrackMetadata} {repository : AudioRepository}
  {outputLatencyFrames : ℚ → ℕ} {longest : ℕ} {player : Player} {deck : DeckId}

theorem followed_resolved (followed : player.Holds deck (Followed repository outputLatencyFrames longest))
    {audio : LoadedAudio}
    (loaded : (player.decks deck).source.messageThreadCurrentBuffer = some audio) :
    repository (player.app.component.stateManager.getState deck).trackId = some audio := by
  have resolved := followed.holds.track.symm.trans (followed.holds.steady.buffer.trans loaded)
  unfold EngineAdapter.resolve at resolved
  split at resolved
  · cases resolved
  · exact resolved

/-- A deck that has played out its track goes on from the beginning. -/
theorem computeResumePositionSeconds_playedOut (listed : Listed getTrackMetadata repository)
    (followed : player.Holds deck (Followed repository outputLatencyFrames longest))
    (ended : PlayedOut (player.decks deck).playback) :
    player.computeResumePositionSeconds getTrackMetadata deck = 0 := by
  unfold Player.computeResumePositionSeconds
  dsimp only
  cases loaded : (player.decks deck).source.messageThreadCurrentBuffer with
  | none =>
      have sampled := followed.holds.steady.sampled
      have nowhere : (player.decks deck).getCurrentPosition = 0 := by
        apply if_pos
        refine le_of_eq (sampled.trans ?_)
        simp only [DeckPlayer.playback, loaded, Option.elim_none]
      rw [nowhere, ite_self]
  | some audio =>
      have resolved := followed_resolved followed loaded
      have known := listed.duration _ _ resolved
      obtain ⟨track, named, seconds⟩ := Option.map_eq_some_iff.mp known
      rw [named, Option.elim_some, seconds]
      exact if_pos ⟨Engine.durationSeconds_pos (listed.playable _ _ resolved), ended.silent,
        ended.position_near followed.holds.steady loaded⟩

/-- What the engine is asked by a click that starts the deck at its beginning. -/
theorem playback_edit_start (named : (player.decks deck).adapter.deck = deck) (now : ℚ) :
    (((player.step repository outputLatencyFrames (.edit now
      { deck, positionSeconds := some 0, playing := some true })).1).decks deck).playback =
        { (player.decks deck).playback with
          source := ((player.decks deck).source.requestSeek 0).perform .play } := by
  have zero : clampPosition 0 = 0 := by decide +kernel
  simp [Player.step, Player.applyOwn, Player.notifyAll, Player.withApp, Player.notify,
    StateManager.applyDelta, StateManager.prepare, StateDelta.empty, StateDelta.clamp,
    StateDelta.withPosition, DeckPlayer.playback, DeckPlayer.notify, EngineAdapter.handleDelta,
    EngineAdapter.calls, EngineAdapter.trackCalls, EngineAdapter.parameterCalls, named, zero,
    Engine.BufferPlaybackSource.perform]

theorem playback_block (numOutput : ℕ) :
    ((player.step repository outputLatencyFrames (.block deck numOutput)).1.decks deck).playback =
      ((player.decks deck).playback.step double outputLatencyFrames (.block numOutput)).1 := by
  simp only [Player.step, Player.setDeck, Function.update_self]
  rfl

end Presses

/-- Devices that the stretcher suits. -/
def PlayerEvent.Suitable (outputLatencyFrames : ℚ → ℕ) (longest : ℕ) : PlayerEvent → Prop
  | .prepareToPlay _ _ sampleRate =>
      Suits longest sampleRate ∧ outputLatencyFrames sampleRate ≤ longest
  | _ => True

section Runs

variable {getTrackMetadata : String → Option TrackMetadata} {repository : AudioRepository}
  {outputLatencyFrames : ℚ → ℕ} {longest : ℕ} {player : Player} {deck : DeckId}
  {event : PlayerEvent}

theorem rule_followed (playable : ∀ trackId audio, repository trackId = some audio →
      Playable audio) (suitable : event.Suitable outputLatencyFrames longest) :
    DeckRule repository outputLatencyFrames deck
      (Followed repository outputLatencyFrames longest) player event where
  delta delta _ _ := keeps_followed playable delta
  device played own state player followed := by
    rcases playbackEvent_eq_some own with ⟨expected, sampleRate, rfl, rfl⟩ | ⟨numOutput, _, rfl⟩
    · have device : PlaybackEvent.Suitable outputLatencyFrames longest
          (.prepareToPlay expected sampleRate) := suitable
      exact ⟨followed.inRange, followed.steady.step device, followed.track⟩
    · refine ⟨followed.inRange, followed.steady.block numOutput, ?_⟩
      rcases player.playback.step_block double outputLatencyFrames numOutput with
        ⟨audio, _, rendered⟩ | ⟨_, silent⟩
      · rw [rendered]
        exact followed.track
      · rw [silent]
        exact followed.track
  role _ _ _ _ followed := ⟨followed.inRange, followed.steady, followed.track⟩
  rewound _ _ _ _ _ followed := ⟨followed.inRange, followed.steady, followed.track⟩

theorem rule_playedOut (still : ∀ delta ∈ player.deltas event, delta.deck = deck → ¬ delta.Moves) :
    DeckRule repository outputLatencyFrames deck Ended player event where
  delta delta member own := keeps_playedOut (still delta member own)
  device played own state player ended := by
    apply PlayedOut.step ended
    rcases playbackEvent_eq_some own with ⟨_, _, _, rfl⟩ | ⟨_, _, rfl⟩
    · trivial
    · trivial
  role _ _ _ _ ended := ended
  rewound _ _ _ _ _ ended := ended

theorem followed_run (playable : ∀ trackId audio, repository trackId = some audio →
      Playable audio) (unprepared : outputLatencyFrames 0 ≤ longest)
    (varToString : Var → String) {events : List PlayerEvent}
    (suitable : ∀ event ∈ events, event.Suitable outputLatencyFrames longest) :
    (Machine.run (Player.step repository outputLatencyFrames) (.started varToString) events).Holds deck
      (Followed repository outputLatencyFrames longest) := by
  refine Machine.history_invariant_of (Player.step repository outputLatencyFrames)
    (fun row => row.input.Suitable outputLatencyFrames longest)
    (fun _ player => player.Holds deck (Followed repository outputLatencyFrames longest))
    ⟨rfl, followed_initial unprepared deck⟩ (fun _ player event held suits => ?_)
    fun row member => suitable _ (Machine.input_mem _ member)
  exact Player.Holds.step held (rule_followed playable suits)

end Runs

/-- A deck that has stopped itself at the end of its track, and has been neither moved nor
started since, starts over from the beginning when its play button is pressed, as long as the
longest that the stretcher holds back on any of the devices is a fifth of a second at most. -/
theorem played_out_starts_over {getTrackMetadata : String → Option TrackMetadata}
    {repository : AudioRepository} {outputLatencyFrames : ℚ → ℕ} {longest : ℕ}
    (listed : Listed getTrackMetadata repository)
    (unprepared : outputLatencyFrames 0 ≤ longest) {varToString : Var → String} {events : List PlayerEvent}
    (suitable : ∀ event ∈ events, event.Suitable outputLatencyFrames longest) {deck : DeckId}
    {earlier later : List PlayerEntry} {row : PlayerEntry}
    (shape : Machine.trace (Player.step repository outputLatencyFrames) (.started varToString)
      events = earlier ++ row :: later)
    {numOutput : ℕ} (block : row.input = .block deck numOutput)
    (played : (row.before.decks deck).isPlaying = true)
    (stopped : (row.after.decks deck).isPlaying = false)
    (untouched : ∀ each ∈ later, ∀ delta ∈ each.before.deltas each.input,
      delta.deck = deck → ¬ delta.Moves) :
    let player := Machine.run (Player.step repository outputLatencyFrames) (.started varToString)
      events
    (player.app.component.stateManager.getState deck).playing = false →
    let click := player.togglePlayPause getTrackMetadata deck
    click = { deck, positionSeconds := some 0, playing := some true } ∧
      ∀ now, let again := (player.step repository outputLatencyFrames (.edit now click)).1.decks deck
        again.isPlaying = true ∧ ∀ audio, again.source.activeBuffer = some audio →
          2 * audio.sampleRate ≤ audio.numSamples →
            (again.playback.afterRequests outputLatencyFrames).start double = 0 := by
  intro player shown click
  have followed := @followed_run _ outputLatencyFrames longest deck listed.playable unprepared varToString _
    suitable
  obtain ⟨first, input, rest, rfl, rfl, rfl, rfl⟩ := Machine.trace_split _ shape
  have before := @followed_run _ outputLatencyFrames longest deck listed.playable unprepared
    varToString first fun event member => suitable event (List.mem_append_left _ member)
  cases (block : input = .block deck numOutput)
  -- The block that stopped the deck left it at the end, and so does all that came after.
  have ended : (Machine.entry (Player.step repository outputLatencyFrames)
      (Machine.run (Player.step repository outputLatencyFrames) (.started varToString) first)
      (.block deck numOutput)).after.Holds deck Ended := by
    have named := (Player.Holds.step before (rule_followed listed.playable
      (suitable (.block deck numOutput) (by simp)))).named
    refine ⟨named, ?_⟩
    have after := @playback_block repository outputLatencyFrames
      (Machine.run (Player.step repository outputLatencyFrames) (.started varToString) first) deck numOutput
    simp only [Machine.entry] at stopped ⊢
    rw [Ended, after]
    apply before.holds.steady.playedOut played
    rw [← after]
    exact stopped
  have still : player.Holds deck Ended := by
    have run : player = Machine.run (Player.step repository outputLatencyFrames)
        (Machine.entry (Player.step repository outputLatencyFrames)
          (Machine.run (Player.step repository outputLatencyFrames) (.started varToString) first)
          (.block deck numOutput)).after rest := by
      simp only [player, Machine.run_append]
      rfl
    rw [run]
    exact Machine.history_invariant_of (Player.step repository outputLatencyFrames)
      (fun each => ∀ delta ∈ each.before.deltas each.input, delta.deck = deck → ¬ delta.Moves)
      (fun _ player => player.Holds deck Ended) ended
      (fun _ player event held quiet => Player.Holds.step held (rule_playedOut quiet)) untouched
  have start : click = { deck, positionSeconds := some 0, playing := some true } := by
    have resumed : player.computeResumePositionSeconds getTrackMetadata deck = 0 :=
      computeResumePositionSeconds_playedOut listed followed still.holds
    simp only [click, Player.togglePlayPause, shown, Bool.false_eq_true, ↓reduceIte, resumed]
  refine ⟨start, fun now => ?_⟩
  intro again
  have asked : again.playback = _ :=
    (congrArg (fun delta => (((player.step repository outputLatencyFrames
      (.edit now delta)).1).decks deck).playback) start).trans
        (playback_edit_start followed.named now)
  refine ⟨congrArg (fun playback => playback.source.playing) asked, fun audio buffer long => ?_⟩
  rw [asked]
  have loaded : (player.decks deck).source.messageThreadCurrentBuffer = some audio := by
    have same := congrArg (fun playback => playback.source.activeBuffer) asked
    exact followed.holds.steady.buffer.symm.trans (same.symm.trans buffer)
  exact still.holds.start_again followed.holds.steady loaded long

section Examples

/-- Two seconds of silence, in a catalogue of one track. -/
def twoSeconds : LoadedAudio := .silence 200 100

def oneTrack : AudioRepository := fun trackId => if trackId = "intro" then some twoSeconds else none

def oneTrackListed (trackId : String) : Option TrackMetadata :=
  if trackId = "intro" then
    some { id := "intro", title := "Intro", fileName := "intro.wav", durationSeconds := 2 }
  else none

theorem listed_oneTrack : Listed oneTrackListed oneTrack := by
  constructor
  · intro trackId audio loaded
    simp only [oneTrack, Option.ite_none_right_eq_some, Option.some.injEq] at loaded
    obtain ⟨_, rfl⟩ := loaded
    exact ⟨by decide, by decide, by decide +kernel, by decide +kernel⟩
  · intro trackId audio loaded
    simp only [oneTrack, Option.ite_none_right_eq_some, Option.some.injEq] at loaded
    obtain ⟨rfl, rfl⟩ := loaded
    decide +kernel

def introOnce : StateDelta where
  deck := .A
  trackId := some "intro"
  playing := some true
  positionSeconds := some 0
  repeats := some false

/-- A stretcher that holds back seven hundredths of a second. -/
def sevenHundredths (deviceSampleRate : ℚ) : ℕ := ⌊deviceSampleRate * 7 / 100⌋₊

/-- The track is started, and half a second of it is played before the device is exchanged for a
slower one. -/
def introStarted : List PlayerEvent :=
  [.prepareToPlay .A 512 200, .edit 0 introOnce, .block .A 100, .prepareToPlay .A 512 100]

def introPlayed : List PlayerEvent := introStarted ++ [.block .A 512, .selfStopTick 100 .A]

theorem played_out_starts_over_intro :
    (Machine.run (Player.step oneTrack sevenHundredths) (.started fun _ => "")
        introPlayed).togglePlayPause oneTrackListed .A =
      { deck := .A, positionSeconds := some 0, playing := some true } := by
  have suitable : ∀ event ∈ introPlayed, event.Suitable sevenHundredths 14 := by
    simp only [introPlayed, introStarted, List.cons_append, List.nil_append, List.forall_mem_cons,
      PlayerEvent.Suitable, true_and]
    refine ⟨⟨⟨?_, ?_, ?_⟩, ?_⟩, ⟨⟨?_, ?_, ?_⟩, ?_⟩, List.forall_mem_nil _⟩ <;> decide +kernel
  refine (played_out_starts_over listed_oneTrack (by decide +kernel) suitable
    (Machine.trace_append (Player.step oneTrack sevenHundredths) (.started fun _ => "")
      introStarted _)
      rfl ?_ ?_ ?_ ?_).1
  · decide +kernel
  · decide +kernel
  · intro each member delta carried _
    obtain rfl := List.mem_singleton.mp member
    obtain rfl := List.mem_singleton.mp (List.mem_ite_nil_right.mp carried).2
    simp [StateDelta.Moves]
  · decide +kernel

end Examples

end DjApp.Client
