import DjApp.System.Governing
import DjApp.System.LongRun

/-! A run past the last sequence number that is an `int`. Every delta makes the clients ask
for a snapshot then, and one that is granted control meanwhile has its edits undone. -/

set_option autoImplicit false

namespace DjApp.System

open Library
open Server (ConnId Frame Room RoomConfig Registration IsMember)
open Client (ClientApp ClientMessage PlaybackState Single StateDelta)

def beaId : Server.ClientId := ⟨8⟩

def bea : Registration := ⟨beaId, js "Bea"⟩

/-- Bea's room-mate is in control, and both are members. -/
structure Both (room : Room) (serverSeq : ℕ) : Prop where
  conns : room.conns = Function.update (Function.update (fun _ => none) 0 (some ana)) 1 (some bea)
  clients : room.clients = [(anaId, 0), (beaId, 1)]
  controls : room.controllerId = some anaId
  counted : room.serverSeq = serverSeq

/-- The world of two clients, the second on the second connection. -/
def twoClients (room : Room) (near far : ClientApp) (link : Option ConnId)
    (nearEnd farEnd : Connection) : World :=
  ⟨room, pair near far {}, pair link (some 1) none, pair nearEnd farEnd {}, 2⟩

section Bea

variable {room : Room} {serverSeq : ℕ}

theorem Both.bounded (both : Both room serverSeq) : room.clients.length ≤ 9 := by
  rw [both.clients]
  decide

theorem Lone.both (lone : Lone room serverSeq) : Both (room.register 1 beaId (js "Bea")) serverSeq where
  conns := by
    rw [Room.register, lone.conns]
    rfl
  clients := by
    rw [Room.register, lone.clients]
    rfl
  controls := lone.controls
  counted := lone.counted

theorem Both.applyDelta (both : Both room serverSeq) (deck : DeckId) (changes : Server.Changes) :
    Both (Server.applyDelta room deck changes) (serverSeq + 1) :=
  ⟨both.conns, both.clients, both.controls, congrArg (· + 1) both.counted⟩

def beaWelcome (room : Room) : Frame :=
  .welcome beaId .observer room.serverSeq room.decks (room.peersFor 1)

/-- Bea's client as the server's frames reach it. -/
def beaJoined (room : Room) : ClientApp := ClientApp.receive {} (beaWelcome room)

theorem handled_beaHello (lone : Lone room serverSeq) :
    room.step party (.message 1 (ClientMessage.hello "Bea" "party").asJs fun _ => beaId) =
      (room.register 1 beaId (js "Bea"),
        ⟨[.send 1 (beaWelcome (room.register 1 beaId (js "Bea"))),
            .send 0 (.peerJoined beaId (js "Bea") .observer)], { ok := true }⟩) := by
  have unregistered : room.conns 1 = none := by rw [lone.conns]; rfl
  have free : room.clients.length < party.maxClients := by rw [lone.clients]; decide
  have fresh : room.clients.lookup beaId = none := by rw [lone.clients]; rfl
  have role : (room.register 1 beaId (js "Bea")).roleOfId beaId = .observer := by
    rw [Room.roleOfId, lone.both.controls]
    rfl
  rw [asJs_hello]
  refine (@Server.step_hello party room 1 _ (fun _ => beaId) unregistered free fresh
    ⟨by decide, by decide, by decide, by decide⟩ (by decide)).trans ?_
  rw [Server.welcome, role]
  simp [beaWelcome, Room.broadcast, lone.both.clients]

/-- Bea joins, claims control in vain as yet, and Ana edits once more. -/
theorem late_edit (solo : Solo serverSeq) :
    ∃ room app, Both room (serverSeq + 1) ∧ Steady app ∧
      (room.decks.lookup .A).map (·.gain) = some 1 ∧ ∃ before : Room,
      Reachable party (twoClients room app (beaJoined before) (some 0)
        ⟨[], [.peerJoined beaId (js "Bea") .observer], true⟩
        ⟨[.claimControl], [.delta (serverSeq + 1) anaId .A (gainDelta 1).toChanges], true⟩) := by
  obtain ⟨room, app, lone, steady, reachable⟩ := solo
  have connected : Reachable party (twoClients room app {} (some 0) ⟨[], [], true⟩
      ⟨[.hello "Bea" "party"], [], true⟩) := by
    have stepped := reachable.step
      (.connect _ 1 "Bea" "party" rfl (buildHello_party (by decide))) reachable.bounded
    simpa [oneClient, twoClients, ClientApp.connect] using stepped
  let joint := room.register 1 beaId (js "Bea")
  have both : Both joint serverSeq := lone.both
  have joined : Reachable party (twoClients joint app {} (some 0)
      ⟨[], [.peerJoined beaId (js "Bea") .observer], true⟩ ⟨[], [beaWelcome joint], true⟩) := by
    have stepped := @ReachableBy.serve _ _ connected 1 _ [] [] rfl _ _ _ (handled_beaHello lone)
      both.bounded
    rw [twoClients, update_pair_one, hear_pair _ _ (by simp) (by simp)] at stepped
    exact stepped
  have welcomed : Reachable party (twoClients joint app (beaJoined joint) (some 0)
      ⟨[], [.peerJoined beaId (js "Bea") .observer], true⟩ ⟨[], [], true⟩) := by
    have stepped := @ReachableBy.receive _ _ joined 1 1 rfl [] (beaWelcome joint) [] rfl fun _ _ => rfl
    have silent : ClientApp.replies {} (beaWelcome joint) = [] := rfl
    simpa [twoClients, silent, beaJoined] using stepped
  have claims : Reachable party (twoClients joint app (beaJoined joint) (some 0)
      ⟨[], [.peerJoined beaId (js "Bea") .observer], true⟩ ⟨[.claimControl], [], true⟩) := by
    simpa [twoClients] using @ReachableBy.claim _ _ welcomed 1 1 rfl [] [] rfl
  have range : Server.FieldRange.gain.Holds 1 := by
    norm_num [Server.FieldRange.gain, Server.Range.Holds]
  obtain ⟨now, sent, after⟩ := steady.edit range
  let waiting := (app.step (.edit now (gainDelta 1))).1
  have edited : Reachable party (twoClients joint waiting (beaJoined joint) (some 0)
      ⟨[.delta (gainDelta 1)], [.peerJoined beaId (js "Bea") .observer], true⟩
      ⟨[.claimControl], [], true⟩) := by
    have stepped := @ReachableBy.edit _ _ claims 0 0 rfl [] _ rfl now (gainDelta 1)
      steady.canControlLocally (namesTrack_gainDelta 1)
    simpa [twoClients, sent] using stepped
  have member : IsMember joint 0 ana := ⟨by rw [both.conns]; rfl, by rw [both.clients]; rfl⟩
  have publishable : (gainDelta 1).Publishable :=
    edited.proper.messages 0 (.delta (gainDelta 1)) (by simp [twoClients])
  let changed := Server.applyDelta joint .A (gainDelta 1).toChanges
  have heard : changed.broadcast (.delta (joint.serverSeq + 1) anaId .A (gainDelta 1).toChanges)
      (some 0) = [.send 1 (.delta (serverSeq + 1) anaId .A (gainDelta 1).toChanges)] := by
    simp [changed, Room.broadcast, Server.applyDelta, both.clients, both.counted]
  have handled := step_delta_controller party member (fun _ => anaId) both.controls publishable
  have served : Reachable party (twoClients changed waiting (beaJoined joint) (some 0)
      ⟨[], [.peerJoined beaId (js "Bea") .observer], true⟩
      ⟨[.claimControl], [.delta (serverSeq + 1) anaId .A (gainDelta 1).toChanges], true⟩) := by
    have stepped := @ReachableBy.serve _ _ edited 0 _ [] _ rfl _ _ _ handled both.bounded
    have told : (Server.applyDelta joint (gainDelta 1).deck (gainDelta 1).toChanges).broadcast
        (.delta (joint.serverSeq + 1) ana.id (gainDelta 1).deck (gainDelta 1).toChanges)
        (some 0) = _ := heard
    rw [twoClients, told, update_pair_zero, hear_pair _ _ (by simp) (by simp)] at stepped
    exact stepped
  refine ⟨changed, waiting, both.applyDelta .A (gainDelta 1).toChanges, after, ?_, joint, served⟩
  have single : BinaryRounding.Representable BinaryRounding.binary32 1 := by
    exact_mod_cast Client.representable_intCast 1 (by decide)
  simp [changed, Server.applyDelta, Server.lookup_writeDeck, Server.assignChanges,
    toChanges_gainDelta single]

/-- Bea alone in the room, in control of it. -/
structure BeaAlone (room : Room) : Prop where
  registered : room.conns 1 = some bea
  clients : room.clients = [(beaId, 1)]
  controls : room.controllerId = some beaId

/-- Ana leaves, and Bea's claim is served before Bea has seen Ana's last delta. -/
theorem late_claim (solo : Solo serverSeq) :
    ∃ room app known, BeaAlone room ∧ room.serverSeq = serverSeq + 1 ∧ app.Idle ∧
      (room.decks.lookup .A).map (·.gain) = some 1 ∧ ∃ before : Room,
      Reachable party (twoClients room app (beaJoined before) none ⟨[], known, false⟩
        ⟨[], [.delta (serverSeq + 1) anaId .A (gainDelta 1).toChanges, .peerLeft anaId,
          .roleChanged beaId .controller], true⟩) := by
  obtain ⟨room, app, both, steady, gain, before, reachable⟩ := late_edit solo
  have left : Reachable party (twoClients room app.closed (beaJoined before) none
      ⟨[], [.peerJoined beaId (js "Bea") .observer], true⟩
      ⟨[.claimControl], [.delta (serverSeq + 1) anaId .A (gainDelta 1).toChanges], true⟩) := by
    have stepped := @ReachableBy.leave _ _ reachable 0 0 rfl fun _ => steady.idle
    simpa [twoClients] using stepped
  have handled : room.step party (.disconnect 0) =
      (room.remove anaId, ⟨[.send 1 (.peerLeft anaId)], { ok := true }⟩) := by
    have registered : room.conns 0 = some ana := by rw [both.conns]; rfl
    have live : room.isMember 0 = true :=
      (Server.isMember_eq_true_iff registered).mpr ⟨registered, by rw [both.clients]; rfl⟩
    have told : (room.remove anaId).broadcast (.peerLeft anaId) = [.send 1 (.peerLeft anaId)] := by
      simp [Room.broadcast, Room.remove, both.clients, beaId, anaId]
    simp [Room.step, Server.handleDisconnect, registered, live, ana, told]
  let vacant := room.remove anaId
  have clients : vacant.clients = [(beaId, 1)] := by
    simp [vacant, Room.remove, both.clients, beaId, anaId]
  have dropped : Reachable party (twoClients vacant app.closed (beaJoined before) none
      ⟨[], [.peerJoined beaId (js "Bea") .observer], false⟩
      ⟨[.claimControl], [.delta (serverSeq + 1) anaId .A (gainDelta 1).toChanges,
        .peerLeft anaId], true⟩) := by
    have stepped := @ReachableBy.drop _ _ left 0 [] _ rfl _ _ handled
      (le_of_eq_of_le (congrArg List.length clients) (by decide))
    rw [twoClients, update_pair_zero, hear_pair _ _ (by simp) (by simp)] at stepped
    exact stepped
  have registered : vacant.conns 1 = some bea := by
    rw [show vacant.conns = room.conns from rfl, both.conns]
    rfl
  have member : IsMember vacant 1 bea := ⟨registered, by rw [clients]; rfl⟩
  have unclaimed : vacant.controllerId = none := by
    simp [vacant, Room.remove, both.controls]
  have told : vacant.broadcast (.roleChanged bea.id .controller) =
      [.send 1 (.roleChanged beaId .controller)] := by
    simp [Room.broadcast, clients, bea]
  have claimed := @ReachableBy.serve _ _ dropped 1 _ [] _ rfl _ _ _
    (step_claimControl_free party member (fun _ => beaId) unclaimed)
    (le_of_eq_of_le (congrArg List.length clients) (by decide))
  rw [twoClients, told, update_pair_one, hear_pair _ _ (by simp) (by simp)] at claimed
  exact ⟨{ vacant with controllerId := some beaId }, app.closed, _, ⟨registered, clients, rfl⟩,
    both.counted, steady.idle, gain, before, claimed⟩

def beaMissed (before : Room) (serverSeq : ℕ) : ClientApp :=
  (beaJoined before).receive (.delta serverSeq anaId .A (gainDelta 1).toChanges)

def beaAlone (before : Room) (serverSeq : ℕ) : ClientApp :=
  (beaMissed before serverSeq).receive (.peerLeft anaId)

def beaControls (before : Room) (serverSeq : ℕ) : ClientApp :=
  (beaAlone before serverSeq).receive (.roleChanged beaId .controller)

/-- Bea gets control while her request for a snapshot is still on its way. -/
theorem late_control (solo : Solo serverSeq) (late : 2 ^ 31 ≤ serverSeq) :
    ∃ room app known, BeaAlone room ∧ app.Idle ∧ (room.decks.lookup .A).map (·.gain) = some 1 ∧
      ∃ beaApp : ClientApp, beaApp.component.role = .controller ∧
        beaApp.component.connected = true ∧ beaApp.Idle ∧
      Reachable party (twoClients room app beaApp none ⟨[], known, false⟩
        ⟨.requestSnapshot :: beaApp.component.pushFullResync, [], true⟩) := by
  obtain ⟨room, app, known, alone, _, idle, gain, before, reachable⟩ := late_claim solo
  have missed : (beaJoined before).replies
      (.delta (serverSeq + 1) anaId .A (gainDelta 1).toChanges) = [.requestSnapshot] := by
    have beyond : Client.seenSeq (serverSeq + 1) = none := if_neg (by omega)
    simp [ClientApp.replies, beyond, ClientApp.needsSnapshot]
  have heard : Reachable party (twoClients room app (beaMissed before (serverSeq + 1)) none
      ⟨[], known, false⟩
      ⟨[.requestSnapshot], [.peerLeft anaId, .roleChanged beaId .controller], true⟩) := by
    have stepped := @ReachableBy.receive _ _ reachable 1 1 rfl [] _ _ rfl fun _ _ => rfl
    simpa [twoClients, missed, beaMissed] using stepped
  have alone' : Reachable party (twoClients room app (beaAlone before (serverSeq + 1)) none
      ⟨[], known, false⟩ ⟨[.requestSnapshot], [.roleChanged beaId .controller], true⟩) := by
    have stepped := @ReachableBy.receive _ _ heard 1 1 rfl _ (.peerLeft anaId) _ rfl fun _ _ => rfl
    simpa [twoClients, ClientApp.replies, beaAlone] using stepped
  have own : (beaAlone before (serverSeq + 1)).standing.known.ownClientId = beaId.text := rfl
  have observes : (beaAlone before (serverSeq + 1)).standing.known.role = .observer := rfl
  obtain ⟨controls, resync⟩ := receive_granted own observes
  have granted : Reachable party (twoClients room app (beaControls before (serverSeq + 1)) none
      ⟨[], known, false⟩
      ⟨.requestSnapshot :: (beaAlone before (serverSeq + 1)).component.pushFullResync, [], true⟩) := by
    have stepped := @ReachableBy.receive _ _ alone' 1 1 rfl _ _ _ rfl fun _ _ => rfl
    simpa [twoClients, resync, beaControls] using stepped
  exact ⟨room, app, known, alone, idle, gain, beaControls before (serverSeq + 1), controls, rfl,
    fun _ => rfl, granted⟩

/-- The snapshot undoes Bea's edit on her own side, while the room keeps it. -/
theorem late_divergence (solo : Solo serverSeq) (late : 2 ^ 31 ≤ serverSeq) :
    ∃ world, Reachable party world ∧ world.Quiescent ∧ world.room.controllerId ≠ none ∧
      ¬ world.Converged := by
  obtain ⟨room, app, known, alone, idle, gain, beaApp, controls, online, beaIdle, reachable⟩ :=
    late_control solo late
  have member : IsMember room 1 bea := ⟨alone.registered, by rw [alone.clients]; rfl⟩
  have bounded : room.clients.length ≤ 9 := reachable.bounded
  have asked : Reachable party (twoClients room app beaApp none ⟨[], known, false⟩
      ⟨beaApp.component.pushFullResync, [room.snapshotFrame], true⟩) := by
    have stepped := @ReachableBy.serve _ _ reachable 1 _ _ [] rfl _ _ _
      (step_requestSnapshot party member fun _ => beaId) bounded
    rw [twoClients, update_pair_one, hear_pair _ _ (by simp) (by simp)] at stepped
    simpa [twoClients, Server.framesTo] using stepped
  have range : Server.FieldRange.gain.Holds (1 / 2) := by
    norm_num [Server.FieldRange.gain, Server.Range.Holds]
  have steady : Steady beaApp := ⟨asked.proper.apps 1, online, controls, beaIdle⟩
  obtain ⟨now, sent, after⟩ := steady.edit range
  let edited := (beaApp.step (.edit now (gainDelta (1 / 2)))).1
  have editing : Reachable party (twoClients room app edited none ⟨[], known, false⟩
      ⟨beaApp.component.pushFullResync ++ [.delta (gainDelta (1 / 2))], [room.snapshotFrame],
        true⟩) := by
    have stepped := @ReachableBy.edit _ _ asked 1 1 rfl _ _ rfl now (gainDelta (1 / 2))
      steady.canControlLocally (namesTrack_gainDelta (1 / 2))
    simp only [twoClients, pair_one, update_pair_one, sent] at stepped
    exact stepped
  have undone : Reachable party (twoClients room app (edited.receive room.snapshotFrame) none
      ⟨[], known, false⟩
      ⟨beaApp.component.pushFullResync ++ [.delta (gainDelta (1 / 2))], [], true⟩) := by
    have stepped := @ReachableBy.receive _ _ editing 1 1 rfl _ _ _ rfl fun _ => after.idle
    have silent : edited.replies room.snapshotFrame = [] := rfl
    simpa [twoClients, silent] using stepped
  let resynced (deck : DeckId) := (Client.fullResyncDelta deck
    (beaApp.component.stateManager.getState deck)).toChanges
  let final := Server.applyDelta (Server.applyDelta (Server.applyDelta room .A (resynced .A)) .B
    (resynced .B)) .A (gainDelta (1 / 2)).toChanges
  have served : Reachable party (twoClients final app (edited.receive room.snapshotFrame) none
      ⟨[], known, false⟩ ⟨[], [], true⟩) := by
    have first := @ReachableBy.serve_alone _ _ undone 1 _ _ _ rfl bea alone.registered alone.clients
      alone.controls
    rw [twoClients, update_pair_one] at first
    have second := @ReachableBy.serve_alone _ _ first 1 _ _ _ rfl bea alone.registered alone.clients
      alone.controls
    rw [update_pair_one] at second
    have third := @ReachableBy.serve_alone _ _ second 1 _ [] _ rfl bea alone.registered
      alone.clients alone.controls
    rw [update_pair_one] at third
    exact third
  have settled : (edited.receive room.snapshotFrame).Idle := after.idle
  have joined : IsMember final 1 bea := ⟨alone.registered, member.live⟩
  refine ⟨_, served, ⟨?_, ?_, ?_, ?_⟩, ?_, fun converged => ?_⟩
  · intro conn
    cases conn using zero_one_or_more with
    | zero | one | more => rfl
  · intro key conn linked
    cases key using zero_one_or_more with
    | zero | more => cases linked
    | one => obtain rfl := Option.some.inj linked; rfl
  · intro conn listening
    cases conn using zero_one_or_more with
    | zero | more => cases listening
    | one => exact ⟨1, rfl⟩
  · intro key
    cases key using zero_one_or_more with
    | zero => exact idle
    | one => exact settled
    | more => exact fun _ => rfl
  · exact alone.controls ▸ Option.some_ne_none beaId
  · obtain ⟨key, linked, shows⟩ := converged 1 bea joined
    have own : key = 1 := by
      cases key using zero_one_or_more with
      | zero | more => cases linked
      | one => rfl
    subst own
    -- The room has the gain of Bea's edit, and Bea's client that of the snapshot.
    have single : BinaryRounding.Representable BinaryRounding.binary32 1 := by
      exact_mod_cast Client.representable_intCast 1 (by decide)
    obtain ⟨deck, found, one⟩ := Option.map_eq_some_iff.mp gain
    have received : (edited.receive room.snapshotFrame).component.stateManager.getState .A =
        .ofDeck deck := by
      have overwritten : (edited.receive room.snapshotFrame).component.stateManager.getState .A =
          ((room.decks.lookup .A).map PlaybackState.ofDeck).getD _ := rfl
      rw [overwritten, found]
      rfl
    have shown : (final.decks.lookup .A).map (·.gain) = some 1 := by
      have own := shows .A
      simp only [twoClients, pair_one, received] at own
      rw [own]
      exact congrArg some ((congrArg (Single.value <| .ofDouble ·) one).trans
        (Single.representable_value single))
    have half := toChanges_gainDelta Client.representable_half
    have kept : (final.decks.lookup .A).map (·.gain) = some (1 / 2) := by
      simp only [final, Server.applyDelta, Server.lookup_writeDeck, Server.assignChanges, half,
        ↓reduceIte, Option.map_some, Option.getD_some]
    rw [kept] at shown
    norm_num at shown

end Bea

end DjApp.System
