import DjApp.Client.Player

/-! The listeners hear exactly the changes of the state, and what they and the audio
thread do never reaches the state by itself. -/

set_option autoImplicit false

namespace DjApp.Client

open Library

def StateManager.applyRemote (manager : StateManager) (deltas : List StateDelta) : StateManager :=
  deltas.foldl (fun manager delta => (manager.applyDelta delta .remote).1) manager

section Heard

variable (component : MainComponent) (now : ℚ)

theorem stateManager_applyDelta (delta : StateDelta) (source : DeltaSource) :
    (component.applyDelta now delta source).1.stateManager =
      (component.stateManager.applyDelta delta source).1 := by
  unfold MainComponent.applyDelta
  split
  · rename_i manager applied
    rw [applied]
  · rename_i manager notification applied
    rw [applied]

theorem stateManager_applySnapshotDeck (decks : Properties) (deck : DeckId) :
    (component.applySnapshotDeck now decks deck).1.stateManager =
      component.stateManager.applyRemote (snapshotDelta decks deck).toList := by
  unfold MainComponent.applySnapshotDeck snapshotDelta
  cases decks.lookup deck.text with
  | none => rfl
  | some v =>
      simp only [MainComponent.applyDeckSnapshot, Option.bind_some]
      cases playbackStateFromVar v with
      | error reason => rfl
      | ok state => exact stateManager_applyDelta component now _ .remote

theorem stateManager_applySnapshot (decks : Var) :
    (component.applySnapshot now decks).1.stateManager =
      component.stateManager.applyRemote (snapshotDeltas decks) := by
  cases decks with
  | obj decks =>
      simp only [MainComponent.applySnapshot, snapshotDeltas, stateManager_applySnapshotDeck,
        StateManager.applyRemote, List.foldl_append]
  | null | bool | num | str | arr => rfl

theorem stateManager_handleWelcome (fields : Properties) :
    (component.handleWelcome now (.obj fields)).1.stateManager =
      component.stateManager.applyRemote
        (match getProperty fields "snapshot" with
          | .obj snapshot => snapshotDeltas (getProperty snapshot "decks")
          | _ => []) := by
  simp only [MainComponent.handleWelcome, MainComponent.applyRoleToUI]
  cases getProperty fields "snapshot" with
  | obj snapshot => exact stateManager_applySnapshot _ now _
  | null | bool | num | str | arr => rfl

/-- Apart from a snapshot no other event of the room touches the decks. -/
theorem stateManager_handleServerEvent {msg : Var} (other : messageType msg ≠ "snapshot") :
    (component.handleServerEvent now msg).1.stateManager = component.stateManager := by
  unfold MainComponent.handleServerEvent
  cases msg with
  | obj fields =>
      simp only
      split
      · exact absurd ‹_› other
      · unfold MainComponent.handleRoleChanged
        split <;> rfl
      · split <;> rfl
      · rfl
      · rfl
  | null | bool | num | str | arr => rfl

theorem remoteDeltas_of_other {msg : Var} (welcome : messageType msg ≠ "welcome")
    (delta : messageType msg ≠ "delta") (snapshot : messageType msg ≠ "snapshot") :
    remoteDeltas msg = [] := by
  unfold remoteDeltas
  cases msg with
  | obj fields =>
      -- None of the three types that carry decks is the one of this message.
      simp only
  | null | bool | num | str | arr => rfl

theorem stateManager_event (app : ClientApp) {msg : Var} {type : String}
    (typed : messageType msg = type) (event : type ∉ ["welcome", "delta", "snapshot"]) :
    (app.component.handleServerEvent now msg).1.stateManager =
      app.component.stateManager.applyRemote (remoteDeltas msg) := by
  subst typed
  simp only [List.mem_cons, List.not_mem_nil, or_false, not_or] at event
  obtain ⟨welcome, delta, snapshot⟩ := event
  rw [remoteDeltas_of_other welcome delta snapshot]
  exact stateManager_handleServerEvent app.component now snapshot

/-- The state after a message is the one that its listeners have been told of. -/
theorem stateManager_dispatch (app : ClientApp) (msg : Var) :
    (app.dispatch now msg).1.component.stateManager =
      app.component.stateManager.applyRemote (remoteDeltas msg) := by
  cases msg with
  | obj fields =>
      simp only [ClientApp.dispatch]
      split
      next welcome =>
        simp only [remoteDeltas, welcome, ClientApp.withComponent, stateManager_handleWelcome]
        rfl
      next delta =>
        simp only [remoteDeltas, delta, ClientApp.dispatchDelta]
        cases parseDeltaMessage (.obj fields) with
        | error reason => rfl
        | ok parsed => exact stateManager_applyDelta app.component now _ .remote
      next snapshot =>
        simp only [remoteDeltas, snapshot, ClientApp.withComponent, MainComponent.handleServerEvent,
          stateManager_applySnapshot]
      next typed => exact stateManager_event now app typed (by decide)
      next typed => exact stateManager_event now app typed (by decide)
      next typed => exact stateManager_event now app typed (by decide)
      next typed => exact stateManager_event now app typed (by decide)
      next welcome delta snapshot _ _ _ _ =>
        rw [remoteDeltas_of_other welcome delta snapshot]
        rfl
  | null | bool | num | str | arr => rfl

end Heard

end DjApp.Client
