import DjApp.Client.PublisherProperties

/-! A client taking step after step: its user's edits, the frames of its room, its
timer and its connection. -/

set_option autoImplicit false

namespace DjApp.Client

open Library
open Server (Frame RoomConfig)

inductive ClientEvent where
  | edit (now : ℚ) (delta : StateDelta)
  | frame (now : ℚ) (frame : Frame)
  | tick (now : ℚ)
  | connect
  | closed

def ClientApp.step (app : ClientApp) : ClientEvent → ClientApp × List ClientMessage
  | .edit now delta => app.withComponent (app.component.applyDelta now delta .own)
  | .frame now frame => app.dispatch now frame.toVar
  | .tick now => app.withComponent (app.component.publisherTick now)
  | .connect => (app.connect, [])
  | .closed => (app.closed, [])

abbrev ClientEntry := Machine.Entry ClientApp ClientEvent (List ClientMessage)

/-- What holds of a client between any two steps. -/
structure ClientApp.Coherent (app : ClientApp) : Prop where
  keyed : app.component.syncPublisher.Keyed
  connected : app.component.syncPublisher.connected = app.component.connected
  role : app.component.syncPublisher.role = app.component.role
  offline : app.component.connected = false →
    app.component.ownClientId = "" ∧ app.component.role = .observer

@[simp] theorem deck_prepare (manager : StateManager) (delta : StateDelta)
    (source : DeltaSource) : (manager.prepare delta source).deck = delta.deck := by
  unfold StateManager.prepare StateDelta.withPosition
  split <;> rfl

theorem MainComponent.applyDelta_empty (component : MainComponent) (now : ℚ) {delta : StateDelta}
    (source : DeltaSource) (empty : delta.empty = true) :
    component.applyDelta now delta source = (component, []) := by
  simp [applyDelta, StateManager.applyDelta, empty]

/-- An own change reaches the state, and the publisher is told what was applied. -/
theorem MainComponent.applyDelta_own (component : MainComponent) (now : ℚ) {delta : StateDelta}
    (present : delta.empty = false) :
    let applied := component.stateManager.prepare delta .own
    let told := component.syncPublisher.tell now applied
    component.applyDelta now delta .own =
      ({ component with
          stateManager := ⟨Decks.overlay component.stateManager.states applied⟩
          syncPublisher := told.1 }, told.2.map .delta) := by
  simp [applyDelta, StateManager.applyDelta, present, Decks.overlay, StateManager.getState,
    SyncPublisher.notify_own]

/-- A frame that some room of the configuration may send. -/
def ClientEvent.Valid (config : RoomConfig) : ClientEvent → Prop
  | .frame _ sent => sent.Valid config
  | .edit _ _ | .tick _ | .connect | .closed => True

theorem clientId_text_ne_empty (id : Server.ClientId) : id.text ≠ "" := by
  intro same
  have shape := congrArg String.toList same
  simp [Server.ClientId.text] at shape

theorem ClientApp.Coherent.initial : ClientApp.Coherent {} where
  keyed := by
    intro deck delta pending
    cases pending
  connected := rfl
  role := rfl
  offline _ := ⟨rfl, rfl⟩

theorem ClientApp.Coherent.receive {config : RoomConfig} {app : ClientApp}
    (coherent : app.Coherent) {frame : Frame} (valid : frame.Valid config) :
    (app.receive frame).Coherent := by
  cases frame with
  | welcome id role serverSeq decks peers =>
      exact ⟨coherent.keyed, rfl, rfl, fun offline => by cases offline⟩
  | peerJoined id name role =>
      exact ⟨coherent.keyed, coherent.connected, coherent.role, coherent.offline⟩
  | peerLeft id => exact ⟨coherent.keyed, coherent.connected, rfl, coherent.offline⟩
  | roleChanged id role =>
      refine ⟨coherent.keyed, coherent.connected, rfl, fun offline => ?_⟩
      obtain ⟨unnamed, observer⟩ := coherent.offline offline
      have other : id.text ≠ app.component.knowledge.ownClientId := fun same =>
        clientId_text_ne_empty id (same.trans unnamed)
      simp only [ClientApp.receive, MainComponent.receive, Knowledge.receive, if_neg other]
      exact ⟨unnamed, observer⟩
  | delta serverSeq source deck changes =>
      exact ⟨coherent.keyed, coherent.connected, coherent.role, coherent.offline⟩
  | snapshot serverSeq decks =>
      exact ⟨coherent.keyed, coherent.connected, coherent.role, coherent.offline⟩
  | error code message =>
      exact ⟨coherent.keyed, coherent.connected, coherent.role, coherent.offline⟩

theorem SyncPublisher.tell_keyed {publisher : SyncPublisher} (keyed : publisher.Keyed) (now : ℚ)
    (applied : StateDelta) :
    (publisher.tell now applied).1.Keyed ∧
      (publisher.tell now applied).1.connected = publisher.connected ∧
      (publisher.tell now applied).1.role = publisher.role := by
  unfold tell
  split
  · obtain ⟨kept, _, connected, role⟩ := handleLocalDelta_settled keyed now applied
    exact ⟨kept, connected, role⟩
  · exact ⟨keyed, rfl, rfl⟩

theorem ClientApp.Coherent.step {config : RoomConfig} {app : ClientApp} (coherent : app.Coherent)
    {event : ClientEvent} (valid : event.Valid config) : (app.step event).1.Coherent := by
  cases event with
  | edit now delta =>
      cases empty : delta.empty with
      | true =>
          rw [ClientApp.step, MainComponent.applyDelta_empty _ now _ empty]
          exact coherent
      | false =>
          obtain ⟨keyed, connected, role⟩ := SyncPublisher.tell_keyed coherent.keyed now
            (app.component.stateManager.prepare delta .own)
          rw [ClientApp.step, MainComponent.applyDelta_own _ now empty]
          exact ⟨keyed, connected.trans coherent.connected, role.trans coherent.role,
            coherent.offline⟩
  | frame now frame =>
      rw [ClientApp.step, dispatch_toVar app now valid]
      exact coherent.receive valid
  | tick now =>
      have sends := SyncPublisher.timerCallback_sends coherent.keyed now
      exact ⟨sends.keyed, sends.connected.trans coherent.connected,
        sends.role.trans coherent.role, coherent.offline⟩
  | connect => exact ⟨coherent.keyed, coherent.connected, coherent.role, coherent.offline⟩
  | closed => exact ⟨coherent.keyed, rfl, rfl, fun _ => ⟨rfl, rfl⟩⟩

namespace ClientApp

/-- Once everything pending has been sent, these decks are the client's own. -/
def Owes (app : ClientApp) (decks : Decks) : Prop :=
  app.component.syncPublisher.settle decks = app.component.stateManager.states

variable {app : ClientApp} (coherent : app.Coherent) {decks : Decks}

include coherent

theorem owes_edit (controls : app.component.role = .controller) (now : ℚ) (delta : StateDelta)
    (owes : app.Owes decks) :
    (app.step (.edit now delta)).1.Owes
      (decks.overlayAll (deltasOf (app.step (.edit now delta)).2)) := by
  cases empty : delta.empty with
  | true =>
      rw [step, MainComponent.applyDelta_empty _ now _ empty]
      exact owes
  | false =>
      have online : app.component.syncPublisher.connected = true := by
        rw [coherent.connected, ← Bool.not_eq_false]
        intro offline
        exact absurd (controls.symm.trans (coherent.offline offline).2) (by decide)
      have told := SyncPublisher.settle_tell coherent.keyed now
        (app.component.stateManager.prepare delta .own) online (coherent.role.trans controls) decks
      rw [step, MainComponent.applyDelta_own _ now empty]
      simp only [Owes, withComponent, deltasOf_map_delta, told]
      rw [owes]

theorem owes_tick (now : ℚ) (owes : app.Owes decks) :
    (app.step (.tick now)).1.Owes (decks.overlayAll (deltasOf (app.step (.tick now)).2)) := by
  have sends := SyncPublisher.timerCallback_sends coherent.keyed now
  simp only [Owes, step, withComponent, MainComponent.publisherTick, deltasOf_map_delta,
    sends.settled]
  exact owes

end ClientApp

end DjApp.Client
