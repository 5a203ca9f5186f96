import DjApp.Client.DeckRules

/-! The decks that a client shows as playing are those its adapters watch, and the audio thread
plays no other: an engine that stops by itself is always noticed. -/

set_option autoImplicit false

namespace DjApp.Client

open Library
open Engine (AudioRepository BufferPlaybackSource Renderer)

theorem playing_getNextAudioBlock (fl : ℚ → ℚ) (outputLatencyFrames : ℚ → ℕ)
    (source : BufferPlaybackSource) (renderer : Renderer) (numOutput : ℕ)
    (plays : (Engine.getNextAudioBlock fl outputLatencyFrames source renderer numOutput).1.playing =
      true) : source.playing = true := by
  unfold Engine.getNextAudioBlock at plays
  dsimp only at plays
  split at plays
  · cases plays
  · split at plays
    · cases plays
    · split at plays
      · exact plays
      · split at plays
        · exact plays
        · split at plays
          · exact plays
          · exact (Bool.and_eq_true_iff.mp plays).1

/-- A deck's adapter polls and its clock runs for what the state says, and the engine is never
ahead of the state. -/
structure DeckPlayer.Watched (player : DeckPlayer) (deck : DeckId) (playing : Bool) : Prop where
  named : player.adapter.deck = deck
  polls : player.adapter.polling = playing
  plays : player.isPlaying = true → playing = true
  timed : player.clock.expiry.isSome = true ↔ player.clock.role = .controller ∧ playing = true

namespace DeckPlayer.Watched

variable {repository : AudioRepository} {player : DeckPlayer} {deck : DeckId} {playing : Bool}

theorem setRole (watched : player.Watched deck playing) (now : ℚ) (role : Role) :
    { player with clock := player.clock.setRole now playing role }.Watched deck playing where
  named := watched.named
  polls := watched.polls
  plays := watched.plays
  timed := by
    simp only [PositionClock.setRole, PositionClock.updateTimerState]
    split <;> simp_all

theorem named_notify (watched : player.Watched deck playing) (now : ℚ) {notification : Notification}
    (named : notification.applied.deck = deck)
    (shown : notification.newState.playing = notification.applied.playing.getD playing) :
    (player.notify repository now notification).Watched deck notification.newState.playing := by
  have own : notification.applied.deck = player.adapter.deck := named.trans watched.named.symm
  have sounds : (player.notify repository now notification).isPlaying =
      notification.applied.playing.getD player.isPlaying :=
    congrArg Engine.Parameters.playing
      (Engine.parameters_calls player.adapter repository own player.source)
  obtain ⟨kept, clock⟩ := @notify_named deck repository _ watched.named now notification
  have polls : (player.notify repository now notification).adapter.polling =
      notification.applied.playing.getD player.adapter.polling := by
    simp only [DeckPlayer.notify, Engine.EngineAdapter.handleDelta, own, ne_eq, not_true_eq_false,
      ↓reduceIte]
  refine ⟨kept, ?_, ?_, ?_⟩
  · rw [polls, shown, watched.polls]
  · rw [sounds, shown]
    cases notification.applied.playing with
    | none => exact watched.plays
    | some value => exact id
  · rw [clock]
    cases set : notification.applied.playing with
    | none =>
        rw [set] at shown
        simpa [shown] using watched.timed
    | some value =>
        simp only [named, Option.isSome_some, and_self, ↓reduceIte, PositionClock.updateTimerState]
        split <;> simp_all

end DeckPlayer.Watched

namespace Player

variable {repository : AudioRepository} {outputLatencyFrames : ℚ → ℕ} {player : Player}

/-- Each deck is watched for what the client shows of it. -/
def Attentive (player : Player) : Prop :=
  ∀ deck, player.Holds deck fun state player => player.Watched deck state.playing

theorem Attentive.initial (varToString : Var → String) : Attentive (.started varToString) :=
  fun _ => ⟨rfl, ⟨rfl, rfl, id, by simp [Player.started]⟩⟩

theorem rule_watched (deck : DeckId) (event : PlayerEvent) :
    DeckRule repository outputLatencyFrames deck
      (fun state player => player.Watched deck state.playing) player event where
  delta delta _ own now source state player named watched := by
    apply watched.named_notify now _ rfl
    simp only [StateDelta.withPosition]
    split <;> exact own
  device played device state player watched := by
    refine ⟨watched.named, watched.polls, fun plays => watched.plays ?_, watched.timed⟩
    rcases playbackEvent_eq_some device with ⟨_, _, _, rfl⟩ | ⟨_, _, rfl⟩
    · exact plays
    · exact playing_getNextAudioBlock _ _ _ _ _ plays
  role now role state player watched := watched.setRole now role
  rewound expiry next state player running watched := by
    have timed := watched.timed
    rw [running] at timed
    exact ⟨watched.named, watched.polls, watched.plays, timed⟩

section Steps

variable (attentive : player.Attentive)

include attentive

theorem Attentive.step (event : PlayerEvent) :
    (player.step repository outputLatencyFrames event).1.Attentive :=
  fun deck => Player.Holds.step (attentive deck) (rule_watched deck event)

/-- A tick of the adapter leaves what is shown and what is played the same. -/
theorem Attentive.polled (now : ℚ) (deck : DeckId) :
    let after := (player.step repository outputLatencyFrames (.selfStopTick now deck)).1
    (after.decks deck).isPlaying = (after.app.component.stateManager.getState deck).playing := by
  intro after
  have watched : (after.decks deck).Watched deck _ :=
    (attentive.step (.selfStopTick now deck) deck).holds
  cases plays : (after.decks deck).isPlaying with
  | true => exact (watched.plays plays).symm
  | false =>
      cases stops : player.selfStops deck with
      | true =>
          have stopped : after.app.component.stateManager =
              (player.app.component.stateManager.applyDelta
                { deck, playing := some false } .own).1 := by
            simp only [after, step_selfStopTick, stops, ↓reduceIte]
            exact stateManager_applyDelta player.app.component now _ .own
          rw [stopped, playing_applyDelta, if_pos rfl]
          rfl
      | false =>
          have same : after = player := by
            simp only [after, step_selfStopTick, stops, Bool.false_eq_true, ↓reduceIte]
          rw [same] at plays ⊢
          have polls := (attentive deck).holds.polls
          simp only [Player.selfStops, polls, plays, Bool.and_self, Bool.not_false,
            Bool.and_true] at stops
          exact stops.symm

end Steps

end Player

/-- Whatever the user, the room, the timers and the audio thread do, a deck is watched for
self-stops exactly while it is shown as playing, the engine plays no deck that is not, and one
tick of the watch makes the two agree. -/
theorem self_stops_noticed (repository : AudioRepository) (outputLatencyFrames : ℚ → ℕ)
    (varToString : Var → String) (events : List PlayerEvent) (deck : DeckId) :
    let player := Machine.run (Player.step repository outputLatencyFrames) (.started varToString)
      events
    let shown := (player.app.component.stateManager.getState deck).playing
    (player.decks deck).adapter.polling = shown ∧
      ((player.decks deck).isPlaying = true → shown = true) ∧
      ((player.decks deck).clock.expiry.isSome = true ↔ player.Corrects deck) ∧
      ∀ now, let after := (player.step repository outputLatencyFrames (.selfStopTick now deck)).1
        (after.decks deck).isPlaying =
          (after.app.component.stateManager.getState deck).playing := by
  intro player shown
  have kept : player.Attentive ∧ player.Clocked deck :=
    Machine.run_invariant (Player.step repository outputLatencyFrames)
      (fun player => player.Attentive ∧ player.Clocked deck)
      (fun player event ⟨attentive, clocked⟩ => ⟨attentive.step event, (clocked.step event).clocked⟩)
      ⟨.initial varToString, rfl, rfl⟩ events
  obtain ⟨attentive, clocked⟩ := kept
  have watched := (attentive deck).holds
  refine ⟨watched.polls, watched.plays, ?_, fun now => attentive.polled now deck⟩
  rw [watched.timed, clocked.role]
  exact Iff.rfl

end DjApp.Client
