import DjApp.Server.RoomProperties

/-! What holds of every frame a room sends, whatever call it answers. -/

set_option autoImplicit false

namespace DjApp.Server

open Library

/-- The decks of a room between any two calls. -/
structure DecksValid (decks : List (DeckId × Deck)) : Prop where
  keys : decks.map (·.1) = [.A] ∨ decks.map (·.1) = [.A, .B]
  valid : ∀ deck ∈ decks, deck.2.Valid

/-- The peers a welcome lists: the other members, each once. -/
structure PeersValid (config : RoomConfig) (peers : List Peer) : Prop where
  bounded : peers.length < config.maxClients
  named : ∀ peer ∈ peers, ValidName peer.name
  distinct : (peers.map (·.clientId)).Nodup

def Frame.Valid (config : RoomConfig) : Frame → Prop
  | .welcome _ role _ decks peers =>
      role = .observer ∧ DecksValid decks ∧ PeersValid config peers
  | .snapshot _ decks => DecksValid decks
  | .peerJoined _ name role => role = .observer ∧ ValidName name
  | .delta _ _ _ changes => changes.Valid
  | .peerLeft _ | .roleChanged _ _ | .error _ _ => True

/-- The decks of a frame that carries the state of the room. -/
def Frame.decks? : Frame → Option (List (DeckId × Deck))
  | .welcome _ _ _ decks _ | .snapshot _ decks => some decks
  | _ => none

/-- Every connection that was let in gave a name. -/
def Room.Named (room : Room) : Prop :=
  ∀ conn registration, room.conns conn = some registration → ValidName registration.name

theorem DecksValid.of_room {config : RoomConfig} {room : Room} (valid : room.Valid config) :
    DecksValid room.decks :=
  ⟨valid.deckKeys, valid.decksValid⟩

theorem DecksValid.deckA {decks : List (DeckId × Deck)} (valid : DecksValid decks) :
    decks.lookup .A ≠ none := by
  rw [ne_eq, AssocList.lookup_eq_none_iff_not_mem_keys]
  rcases valid.keys with keys | keys <;> simp [keys]

theorem DecksValid.lookup {decks : List (DeckId × Deck)} (valid : DecksValid decks)
    {deck : DeckId} {state : Deck} (found : decks.lookup deck = some state) : state.Valid :=
  valid.valid _ (AssocList.mem_of_lookup found)

theorem Room.Named.createRoom : createRoom.Named := by
  intro conn registration registered
  cases registered

theorem Transition.named {config : RoomConfig} {room : Room} {call : Call} {handled : Handled}
    (transition : Transition config room call handled) (named : room.Named) : handled.1.Named := by
  cases transition with
  | idle | claim | release | delta | leave => exact named
  | join conn msg draws id name unregistered fresh free validName isHello =>
      intro other registration registered
      simp only [welcome, Room.register, Function.update_apply] at registered
      split at registered
      · cases registered
        exact validName
      · exact named other registration registered

theorem runRoom_named (config : RoomConfig) (calls : List Call) : (runRoom config calls).Named :=
  Machine.run_invariant (Room.step config) Room.Named
    (fun room call named => (step_transition config room call).named named)
    Room.Named.createRoom calls

theorem peersFor_named {room : Room} (named : room.Named) (conn : ConnId) :
    ∀ peer ∈ room.peersFor conn, ValidName peer.name := by
  intro peer member
  obtain ⟨client, _, found⟩ := List.mem_filterMap.mp member
  split at found
  · cases found
  · obtain ⟨registration, registered, rfl⟩ := Option.map_eq_some_iff.mp found
    exact named client.2 registration registered

/-- A client is not among its own peers. -/
theorem length_peersFor_lt {room : Room} {conn : ConnId} (present : conn ∈ room.clients.map (·.2)) :
    (room.peersFor conn).length < room.clients.length := by
  obtain ⟨client, member, rfl⟩ := List.mem_map.mp present
  apply Nat.lt_of_le_of_ne (List.length_filterMap_le _ _)
  intro all
  have listed := List.filterMap_length_eq_length.mp all client member
  simp at listed

theorem distinct_peersFor {config : RoomConfig} {room : Room} (valid : room.Valid config)
    (conn : ConnId) : ((room.peersFor conn).map (·.clientId)).Nodup := by
  rw [List.Nodup, List.pairwise_map, Room.peersFor, List.pairwise_filterMap]
  apply (List.pairwise_map.mp valid.distinctIds).imp_of_mem
  intro left right leftMember rightMember unlike leftPeer leftFound rightPeer rightFound
  have carried : ∀ client ∈ room.clients, ∀ peer : Peer, (if client.2 = conn then none
      else (room.conns client.2).map fun registration =>
        (⟨registration.id, registration.name, room.roleOfId registration.id⟩ : Peer)) = some peer →
      peer.clientId = client.1 := by
    intro client member peer found
    have keyed := valid.keyed client member
    split at found
    · cases found
    · obtain ⟨registration, registered, rfl⟩ := Option.map_eq_some_iff.mp found
      simpa [Room.connId, registered] using keyed
  rw [carried left leftMember leftPeer leftFound, carried right rightMember rightPeer rightFound]
  exact unlike

theorem roleOfId_fresh {config : RoomConfig} {room : Room} (valid : room.Valid config)
    {id : ClientId} (fresh : room.clients.lookup id = none) : room.roleOfId id = .observer := by
  have absent := AssocList.lookup_eq_none_iff_not_mem_keys.mp fresh
  have other : room.controllerId ≠ some id := fun holds => absent (valid.controllerLive id holds)
  rw [Room.roleOfId, if_neg other]

/-- Every frame of a call is well formed, and shows the decks as the call leaves them. -/
theorem Transition.frames {config : RoomConfig} {room : Room} {call : Call} {handled : Handled}
    (transition : Transition config room call handled) (valid : room.Valid config)
    (named : room.Named) {conn : ConnId} {frame : Frame}
    (sent : .send conn frame ∈ handled.2.effects) :
    frame.Valid config ∧ ∀ decks, frame.decks? = some decks → decks = handled.1.decks := by
  have after := transition.valid valid
  have namedAfter := transition.named named
  cases transition with
  | idle call outcome answers noDelta =>
      cases answers _ sent with
      | error => exact ⟨trivial, by simp [Frame.decks?]⟩
      | snapshot =>
          refine ⟨.of_room valid, fun decks shown => ?_⟩
          cases shown
          rfl
  | join joining msg draws id name unregistered fresh free validName isHello =>
      rcases List.mem_cons.mp sent with welcomed | announced
      · cases welcomed
        have present : conn ∈ (room.register conn id name).clients.map (·.2) := by
          simp [Room.register]
        have peers : PeersValid config ((room.register conn id name).peersFor conn) :=
          ⟨(length_peersFor_lt present).trans_le after.capacity, peersFor_named namedAfter conn,
            distinct_peersFor after conn⟩
        refine ⟨⟨roleOfId_fresh valid fresh, .of_room after, peers⟩, fun decks shown => ?_⟩
        cases shown
        rfl
      · obtain ⟨_, _, _, same⟩ := mem_broadcast_iff.mp announced
        cases same
        exact ⟨⟨roleOfId_fresh valid fresh, validName⟩, by simp [Frame.decks?]⟩
  | claim | release | leave =>
      obtain ⟨_, _, _, same⟩ := mem_broadcast_iff.mp sent
      cases same
      exact ⟨trivial, by simp [Frame.decks?]⟩
  | delta calling msg draws registration deck changes member controls validated =>
      obtain ⟨_, _, _, same⟩ := mem_broadcast_iff.mp sent
      cases same
      exact ⟨validateDelta_ok_valid validated, by simp [Frame.decks?]⟩

/-- The frames of a run, with the room each of them left behind. -/
theorem roomTrace_frames {config : RoomConfig} {calls : List Call} {row : Entry}
    (member : row ∈ roomTrace config calls) {conn : ConnId} {frame : Frame}
    (sent : .send conn frame ∈ row.output.effects) :
    frame.Valid config ∧ (∀ decks, frame.decks? = some decks → decks = row.after.decks) := by
  obtain ⟨earlier, _, _, shape⟩ := Machine.mem_trace (Room.step config) member
  rw [shape] at sent ⊢
  exact (step_transition config _ row.input).frames (runRoom_valid config earlier)
    (runRoom_named config earlier) sent

end DjApp.Server
