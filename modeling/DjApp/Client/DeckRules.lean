import DjApp.Client.ClockSteps
import DjApp.Client.StateHistory
import DjApp.Engine.Playback

/-! What holds between the state of a deck and its player in every run of a client, by what a
delta, the audio thread and the deck's clock keep. -/

set_option autoImplicit false

namespace DjApp.Client

open Library
open Library.BinaryRounding (double)
open Engine (AudioRepository Playback PlaybackEvent)

/-- The deltas that an event hands to the state manager. -/
def Player.deltas (player : Player) : PlayerEvent → List StateDelta
  | .edit _ delta => [delta]
  | .message _ msg => remoteDeltas msg
  | .selfStopTick _ deck =>
      if player.selfStops deck then [{ deck, playing := some false }] else []
  | .positionTick now deck =>
      if (player.decks deck).clock.expiry.any (· ≤ now) ∧
          (player.decks deck).clock.role = .controller ∧
          (player.app.component.stateManager.getState deck).playing then
        [{ deck, positionSeconds := some (player.decks deck).getCurrentPosition }]
      else []
  | .publisherTick _ | .prepareToPlay _ _ _ | .block _ _ | .connect | .closed _ => []

/-- What an event of the device or the audio thread is for one deck. -/
def PlayerEvent.playbackEvent (deck : DeckId) : PlayerEvent → Option PlaybackEvent
  | .prepareToPlay own samplesPerBlockExpected sampleRate =>
      if own = deck then some (.prepareToPlay samplesPerBlockExpected sampleRate) else none
  | .block own numOutput => if own = deck then some (.block numOutput) else none
  | _ => none

theorem playbackEvent_eq_some {deck : DeckId} {event : PlayerEvent} {played : PlaybackEvent}
    (own : event.playbackEvent deck = some played) :
    (∃ samplesPerBlockExpected sampleRate,
        event = .prepareToPlay deck samplesPerBlockExpected sampleRate ∧
          played = .prepareToPlay samplesPerBlockExpected sampleRate) ∨
      ∃ numOutput, event = .block deck numOutput ∧ played = .block numOutput := by
  cases event with
  | prepareToPlay =>
      obtain ⟨rfl, ⟨⟩⟩ := Option.ite_none_right_eq_some.mp own
      exact .inl ⟨_, _, rfl, rfl⟩
  | block =>
      obtain ⟨rfl, ⟨⟩⟩ := Option.ite_none_right_eq_some.mp own
      exact .inr ⟨_, rfl, rfl⟩
  | edit | message | publisherTick | selfStopTick | positionTick | connect | closed => cases own

def DeckPlayer.playback (player : DeckPlayer) : Playback := ⟨player.source, player.renderer⟩

def DeckPlayer.withPlayback (player : DeckPlayer) (playback : Playback) : DeckPlayer :=
  { player with source := playback.source, renderer := playback.renderer }

section Rules

variable (repository : AudioRepository) (outputLatencyFrames : ℚ → ℕ) (deck : DeckId)
  (holds : PlaybackState → DeckPlayer → Prop)

/-- A delta of a deck keeps what holds between the deck's state and its player. -/
def StateDelta.Keeps (delta : StateDelta) : Prop :=
  ∀ (now : ℚ) (source : DeltaSource) (state : PlaybackState) (player : DeckPlayer),
    player.adapter.deck = delta.deck → holds state player →
    let applied := delta.clamp.withPosition source state
    let newState := state.merge applied
    holds newState (player.notify repository now ⟨applied, newState, source⟩)

/-- So does an event. -/
structure DeckRule (player : Player) (event : PlayerEvent) : Prop where
  delta : ∀ delta ∈ player.deltas event, delta.deck = deck → delta.Keeps repository holds
  device : ∀ played, event.playbackEvent deck = some played → ∀ state player, holds state player →
    holds state (player.withPlayback
      (player.playback.step double outputLatencyFrames played).1)
  role : ∀ now role state (player : DeckPlayer), holds state player →
    holds state { player with clock := player.clock.setRole now state.playing role }
  rewound : ∀ expiry next state (player : DeckPlayer), player.clock.expiry = some expiry →
    holds state player → holds state { player with clock := { player.clock with expiry := some next } }

/-- It holds of the deck, for the states of a manager. -/
structure Player.HoldsFor (player : Player) (manager : StateManager) : Prop where
  named : (player.decks deck).adapter.deck = deck
  holds : holds (manager.getState deck) (player.decks deck)

/-- It holds of the deck as the client shows it. -/
abbrev Player.Holds (player : Player) : Prop :=
  player.HoldsFor deck holds player.app.component.stateManager

variable {repository outputLatencyFrames deck holds}

theorem getState_applyDelta {delta : StateDelta} (present : delta.empty = false)
    (manager : StateManager) (source : DeltaSource) (other : DeckId) :
    (manager.applyDelta delta source).1.getState other =
      if other = delta.deck then
        (manager.getState other).merge (manager.prepare delta source)
      else manager.getState other := by
  simp only [StateManager.applyDelta, present, Bool.false_eq_true, ↓reduceIte,
    StateManager.getState]
  by_cases own : other = delta.deck
  · rw [own, Function.update_self, if_pos rfl]
  · rw [Function.update_of_ne own, if_neg own]

theorem Player.HoldsFor.notifyAll {player : Player} {manager : StateManager} (now : ℚ)
    (source : DeltaSource) {deltas : List StateDelta}
    (rule : ∀ delta ∈ deltas, delta.deck = deck → delta.Keeps repository holds)
    (held : player.HoldsFor deck holds manager) :
    (Player.notifyAll repository now source player manager deltas).HoldsFor deck holds
      (manager.applyAll source deltas) := by
  induction deltas generalizing player manager with
  | nil => exact held
  | cons delta rest ih =>
      obtain ⟨first, later⟩ := List.forall_mem_cons.mp rule
      simp only [Player.notifyAll]
      apply ih later
      cases present : delta.empty with
      | true =>
          simp only [StateManager.applyDelta_of_empty manager source present]
          exact held
      | false =>
          have told : (manager.applyDelta delta source).2 = some ⟨manager.prepare delta source,
              (manager.getState delta.deck).merge (manager.prepare delta source), source⟩ := by
            simp [StateManager.applyDelta, present]
          rw [told]
          refine ⟨(Engine.handleDelta_attached _ _).1.trans held.named, ?_⟩
          rw [getState_applyDelta present]
          by_cases own : deck = delta.deck
          · subst own
            rw [if_pos rfl]
            exact first rfl now source _ _ held.named held.holds
          · rw [if_neg own]
            have same : (player.decks deck).notify repository now ⟨manager.prepare delta source,
                (manager.getState delta.deck).merge (manager.prepare delta source), source⟩ =
                player.decks deck := by
              simp [DeckPlayer.notify, Engine.EngineAdapter.handleDelta,
                Engine.EngineAdapter.calls, held.named, Ne.symm own]
            simp only [Player.notify, same]
            exact held.holds

section Steps

variable {player : Player} (held : player.Holds deck holds)

include held

theorem Player.Holds.told (now : ℚ) (source : DeltaSource) {deltas : List StateDelta}
    (rule : ∀ delta ∈ deltas, delta.deck = deck → delta.Keeps repository holds) {app : ClientApp}
    (manager : app.component.stateManager =
      player.app.component.stateManager.applyAll source deltas) :
    ((Player.notifyAll repository now source player player.app.component.stateManager
      deltas).withApp app).Holds deck holds := by
  obtain ⟨named, kept⟩ := Player.HoldsFor.notifyAll now source rule held
  exact ⟨named, manager ▸ kept⟩

theorem Player.Holds.applyOwn (now : ℚ) {delta : StateDelta}
    (rule : delta.deck = deck → delta.Keeps repository holds) :
    (player.applyOwn repository now delta).1.Holds deck holds :=
  Player.Holds.told held now .own (List.forall_mem_singleton.mpr rule)
    (stateManager_applyDelta player.app.component now delta .own)

/-- A change of one deck's player that leaves its adapter alone. -/
theorem Player.Holds.setDeck (own : DeckId) {changed : DeckPlayer}
    (adapter : changed.adapter = (player.decks own).adapter)
    (kept : own = deck → holds (player.app.component.stateManager.getState deck)
      (player.decks deck) → holds (player.app.component.stateManager.getState deck) changed) :
    (player.setDeck own changed).Holds deck holds := by
  by_cases same : own = deck
  · subst same
    refine ⟨?_, ?_⟩
    · simpa [Player.setDeck, adapter] using held.named
    · simpa [Player.setDeck] using kept rfl held.holds
  · refine ⟨?_, ?_⟩
    · simpa [Player.setDeck, Function.update_of_ne (Ne.symm same)] using held.named
    · simpa [Player.setDeck, Function.update_of_ne (Ne.symm same)] using held.holds

theorem Player.Holds.setClockRoles (now : ℚ)
    (role : ∀ now role state (player : DeckPlayer), holds state player →
      holds state { player with clock := player.clock.setRole now state.playing role }) :
    (player.setClockRoles now).Holds deck holds :=
  ⟨held.named, role now _ _ _ held.holds⟩

theorem Player.Holds.positionTick {now : ℚ} {own : DeckId}
    (rule : DeckRule repository outputLatencyFrames deck holds player (.positionTick now own)) :
    (player.step repository outputLatencyFrames (.positionTick now own)).1.Holds deck holds := by
  have fires := rule.delta
  simp only [Player.deltas] at fires
  simp only [Player.step]
  cases running : (player.decks own).clock.expiry with
  | none => exact held
  | some expiry =>
      dsimp only
      split
      · exact held
      rename_i due
      have wound := @Player.Holds.setDeck deck holds player held own
        { player.decks own with
          clock := { (player.decks own).clock with expiry := some (now + 5000) } } rfl (by
            rintro rfl
            exact rule.rewound expiry _ _ _ running)
      have here : ∀ rewound : DeckPlayer, ((player.setDeck own rewound).decks own) = rewound := by
        intro rewound
        simp [Player.setDeck]
      unfold Player.emitResyncNow
      rw [here]
      split
      · rename_i controls
        apply Player.Holds.applyOwn wound
        apply fires
        rw [if_pos ⟨by simpa [running] using not_lt.mp due, controls⟩]
        exact List.mem_singleton_self _
      · exact wound

/-- What a rule keeps is kept by the step that it is about. -/
theorem Player.Holds.step {event : PlayerEvent}
    (rule : DeckRule repository outputLatencyFrames deck holds player event) :
    (player.step repository outputLatencyFrames event).1.Holds deck holds := by
  cases event with
  | edit now delta =>
      exact Player.Holds.applyOwn held now (rule.delta delta (List.mem_singleton_self delta))
  | message now msg =>
      have told := Player.Holds.told held now .remote rule.delta
        (stateManager_dispatch now player.app msg)
      simp only [Player.step, Player.dispatch]
      split
      · exact Player.Holds.setClockRoles told now rule.role
      · exact told
  | publisherTick now => exact ⟨held.named, held.holds⟩
  | selfStopTick now own =>
      rw [step_selfStopTick]
      have fires := rule.delta
      simp only [Player.deltas] at fires
      split
      · rename_i stops
        apply Player.Holds.applyOwn held
        apply fires
        rw [if_pos stops]
        exact List.mem_singleton_self _
      · exact held
  | positionTick now own => exact Player.Holds.positionTick held rule
  | prepareToPlay own samplesPerBlockExpected sampleRate =>
      refine @Player.Holds.setDeck deck holds player held own _ rfl ?_
      rintro rfl
      exact rule.device _ (if_pos rfl) _ _
  | block own numOutput =>
      refine @Player.Holds.setDeck deck holds player held own _ rfl ?_
      rintro rfl
      exact rule.device _ (if_pos rfl) _ _
  | connect => exact ⟨held.named, held.holds⟩
  | closed now => exact ⟨held.named, rule.role now _ _ _ held.holds⟩

end Steps

end Rules

end DjApp.Client
