import DjApp.System.Stages

/-! A room whose controller goes on editing, for as long as one likes. -/

set_option autoImplicit false

namespace DjApp.System

open Library
open Server (ConnId Frame Room RoomConfig Registration IsMember)
open Client (ClientApp ClientMessage Single StateDelta SyncPublisher)

def gainDelta (gain : ℚ) : StateDelta where
  deck := .A
  gain := some (.ofDouble gain)

theorem clamp_gainDelta {gain : ℚ} (range : Server.FieldRange.gain.Holds gain) :
    (gainDelta gain).clamp = gainDelta gain := by
  have kept := Client.sharedRange_gain.clamp_ofDouble range
  simp [gainDelta, StateDelta.clamp, Client.clampGain, kept]

theorem toChanges_gainDelta {gain : ℚ}
    (single : BinaryRounding.Representable BinaryRounding.binary32 gain) :
    (gainDelta gain).toChanges.gain = some gain :=
  congrArg some (Single.representable_value single)

/-- A client in control, with nothing pending. -/
structure Steady (app : ClientApp) : Prop where
  sound : app.Sound
  online : app.component.connected = true
  controls : app.component.role = .controller
  idle : app.Idle

theorem namesTrack_gainDelta (gain : ℚ) : (gainDelta gain).NamesTrack := by
  intro text named
  cases named

namespace Steady

variable {app : ClientApp} (steady : Steady app)

include steady

theorem canControlLocally : app.component.canControlLocally = true := by
  simp [Client.MainComponent.canControlLocally, Client.controlsEnabledLocally, steady.controls]

/-- Late enough, a change of the gain is sent at once. -/
theorem edit {gain : ℚ} (range : Server.FieldRange.gain.Holds gain) :
    ∃ now, (app.step (.edit now (gainDelta gain))).2 = [.delta (gainDelta gain)] ∧
      Steady (app.step (.edit now (gainDelta gain))).1 := by
  obtain ⟨sound, online, controls, idle⟩ := steady
  let publisher := app.component.syncPublisher
  let now := publisher.lastSendMs .A + 100
  have prepared : app.component.stateManager.prepare (gainDelta gain) .own = gainDelta gain := by
    rw [Client.StateManager.prepare, clamp_gainDelta range]
    simp [StateDelta.withPosition, gainDelta]
  have unthrottled : publisher.throttled now .A = false := by
    have late : SyncPublisher.kMinIntervalMs ≤ 100 := by decide +kernel
    simp [SyncPublisher.throttled, now, late]
  obtain ⟨sent, settled, _⟩ := @SyncPublisher.tell_of_idle publisher now (gainDelta gain)
    (sound.coherent.connected.trans online) (sound.coherent.role.trans controls) idle unthrottled
  have after := (sound.edit now (namesTrack_gainDelta gain)).1
  refine ⟨now, ?_, ?_⟩ <;>
    rw [ClientApp.step, Client.MainComponent.applyDelta_own _ now rfl, prepared] at *
  · exact congrArg (List.map ClientMessage.delta) sent
  · exact ⟨after, online, controls, settled⟩

end Steady

/-- A delta of the controller, when nobody else is there to hear of it. -/
theorem ReachableBy.serve_alone {config : RoomConfig} {world : World}
    (reachable : Reachable config world) {conn : ConnId} {delta : StateDelta}
    {rest : List ClientMessage} {down : List Frame}
    (queue : world.conns conn = ⟨.delta delta :: rest, down, true⟩) {registration : Registration}
    (registered : world.room.conns conn = some registration)
    (alone : world.room.clients = [(registration.id, conn)])
    (controls : world.room.controllerId = some registration.id) :
    Reachable config
      { world with
        room := Server.applyDelta world.room delta.deck delta.toChanges
        conns := Function.update world.conns conn ⟨rest, down, true⟩ } := by
  have member : IsMember world.room conn registration := ⟨registered, by simp [alone]⟩
  have publishable : delta.Publishable :=
    reachable.proper.messages conn (.delta delta) (by simp [queue])
  have handled := step_delta_controller config member (fun _ => registration.id) controls publishable
  have unheard : (Server.applyDelta world.room delta.deck delta.toChanges).broadcast
      (.delta (world.room.serverSeq + 1) registration.id delta.deck delta.toChanges)
      (some conn) = [] := by
    simp [Room.broadcast, Server.applyDelta, alone]
  rw [unheard] at handled
  have served := reachable.serve queue _ handled (by simp [Server.applyDelta, alone])
  simpa [Connection.hear, closes, Server.framesTo] using served

section Ana

/-- The room of the runs below. -/
def party : RoomConfig where
  roomCode := js "party"
  maxClients := 4

def anaId : Server.ClientId := ⟨7⟩

def ana : Registration := ⟨anaId, js "Ana"⟩

/-- A room with one member, which controls it. -/
structure Lone (room : Room) (serverSeq : ℕ) : Prop where
  conns : room.conns = Function.update (fun _ => none) 0 (some ana)
  clients : room.clients = [(anaId, 0)]
  controls : room.controllerId = some anaId
  counted : room.serverSeq = serverSeq

/-- The world of one client, on the first connection. -/
def oneClient (room : Room) (app : ClientApp) (connection : Connection) : World :=
  ⟨room, pair app {} {}, pair (some 0) none none, pair connection {} {}, 1⟩

/-- Some run leads to a room that has accepted so many deltas, with its controller alone
in it and all quiet. -/
def Solo (serverSeq : ℕ) : Prop :=
  ∃ room app, Lone room serverSeq ∧ Steady app ∧
    Reachable party (oneClient room app ⟨[], [], true⟩)

theorem Lone.applyDelta {room : Room} {serverSeq : ℕ} (lone : Lone room serverSeq)
    (deck : DeckId) (changes : Server.Changes) :
    Lone (Server.applyDelta room deck changes) (serverSeq + 1) :=
  ⟨lone.conns, lone.clients, lone.controls, congrArg (· + 1) lone.counted⟩

theorem Solo.next {serverSeq : ℕ} (solo : Solo serverSeq) : Solo (serverSeq + 1) := by
  obtain ⟨room, app, lone, steady, reachable⟩ := solo
  have range : Server.FieldRange.gain.Holds 1 := by
    norm_num [Server.FieldRange.gain, Server.Range.Holds]
  obtain ⟨now, sent, after⟩ := steady.edit range
  have edited : Reachable party (oneClient room (app.step (.edit now (gainDelta 1))).1
      ⟨[.delta (gainDelta 1)], [], true⟩) := by
    have stepped := @ReachableBy.edit _ _ reachable 0 0 rfl [] [] rfl now (gainDelta 1)
      steady.canControlLocally (namesTrack_gainDelta 1)
    simpa [oneClient, sent] using stepped
  have served := @ReachableBy.serve_alone _ _ edited 0 (gainDelta 1) [] [] rfl ana
    (by simp [oneClient, lone.conns]) lone.clients lone.controls
  exact ⟨_, _, lone.applyDelta _ _, after, by simpa [oneClient] using served⟩

theorem buildHello_party {name : String} (valid : Client.isValidHelloName name = true) :
    Client.buildHello name "party" = .ok (ClientMessage.hello name "party").toVar := by
  rw [Client.buildHello, valid]
  rfl

theorem asJs_hello (name : String) : (ClientMessage.hello name "party").asJs =
    Server.helloMessage party.protocolVersion (js name) party.roomCode := by
  simp [ClientMessage.asJs, ClientMessage.toVar, Server.helloMessage, party,
    Client.kProtocolVersion, Server.protocolVersion]

def anaWelcome : Frame := .welcome anaId .observer 0 [(.A, Server.defaultDeckState)] []

/-- Ana's client when it has been welcomed, and when it has got control. -/
def anaJoined : ClientApp := ClientApp.receive {} anaWelcome

def anaControls : ClientApp := anaJoined.receive (.roleChanged anaId .controller)

theorem anaControls_steady {config : RoomConfig} {world : World}
    (reachable : Reachable config world) (key : ℕ) (same : world.apps key = anaControls) :
    Steady anaControls :=
  ⟨same ▸ reachable.proper.apps key, rfl, by decide +kernel, fun _ => rfl⟩

theorem handled_anaHello :
    Server.createRoom.step party
        (.message 0 (ClientMessage.hello "Ana" "party").asJs fun _ => anaId) =
      (Server.createRoom.register 0 anaId (js "Ana"),
        ⟨[.send 0 anaWelcome], { ok := true }⟩) := by
  rw [asJs_hello]
  exact @Server.step_hello party _ 0 _ (fun _ => anaId) rfl (by decide) rfl
    ⟨by decide, by decide, by decide, by decide⟩ (by decide)

/-- Ana joins an empty room, claims control and sends both her decks. -/
theorem solo_start : Solo 2 := by
  let room := Server.createRoom.register 0 anaId (js "Ana")
  have member : IsMember room 0 ana := ⟨rfl, rfl⟩
  have connected : Reachable party
      (oneClient Server.createRoom {} ⟨[.hello "Ana" "party"], [], true⟩) := by
    have stepped := (@ReachableBy.initial ClientMessage.asJs party).step
      (.connect .initial 0 "Ana" "party" rfl (buildHello_party (by decide))) (Nat.zero_le 9)
    simpa [World.initial, const_eq_pair, oneClient, ClientApp.connect] using stepped
  have joined : Reachable party (oneClient room {} ⟨[], [anaWelcome], true⟩) := by
    have stepped := @ReachableBy.serve _ _ connected 0 _ [] [] rfl _ _ _ handled_anaHello (by decide)
    rw [oneClient, update_pair_zero, hear_pair _ _ (by simp [anaWelcome]) (by simp)] at stepped
    exact stepped
  have welcomed : Reachable party (oneClient room anaJoined ⟨[], [], true⟩) := by
    have stepped := @ReachableBy.receive _ _ joined 0 0 rfl [] anaWelcome [] rfl fun _ _ => rfl
    have silent : ClientApp.replies {} anaWelcome = [] := rfl
    simpa [oneClient, silent, anaJoined] using stepped
  have claims : Reachable party (oneClient room anaJoined ⟨[.claimControl], [], true⟩) := by
    simpa [oneClient] using @ReachableBy.claim _ _ welcomed 0 0 rfl [] [] rfl
  have claimed : Reachable party (oneClient { room with controllerId := some anaId } anaJoined
      ⟨[], [.roleChanged anaId .controller], true⟩) := by
    have stepped := @ReachableBy.serve _ _ claims 0 _ [] [] rfl _ _ _
      (step_claimControl_free party member (fun _ => anaId) rfl) (by decide)
    have told : room.broadcast (.roleChanged ana.id .controller) =
        [.send 0 (.roleChanged anaId .controller)] := rfl
    rw [oneClient, told, update_pair_zero, hear_pair _ _ (by simp) (by simp)] at stepped
    exact stepped
  have controls : Reachable party (oneClient { room with controllerId := some anaId } anaControls
      ⟨anaJoined.component.pushFullResync, [], true⟩) := by
    have stepped := @ReachableBy.receive _ _ claimed 0 0 rfl [] (.roleChanged anaId .controller) []
      rfl fun _ _ => rfl
    have resync : anaJoined.replies (.roleChanged anaId .controller) =
        anaJoined.component.pushFullResync := by
      decide +kernel
    simpa [oneClient, resync, anaControls] using stepped
  have first := @ReachableBy.serve_alone _ _ controls 0 _ _ [] rfl ana rfl rfl rfl
  rw [oneClient, update_pair_zero] at first
  have second := @ReachableBy.serve_alone _ _ first 0 _ [] [] rfl ana rfl rfl rfl
  rw [update_pair_zero] at second
  have lone : Lone { room with controllerId := some anaId } 0 := ⟨rfl, rfl, rfl, rfl⟩
  exact ⟨_, _, (lone.applyDelta _ _).applyDelta _ _, anaControls_steady controls 0 rfl, second⟩

theorem solo {serverSeq : ℕ} (started : 2 ≤ serverSeq) : Solo serverSeq := by
  induction serverSeq, started using Nat.le_induction with
  | base => exact solo_start
  | succ serverSeq started ih => exact ih.next

end Ana

end DjApp.System
