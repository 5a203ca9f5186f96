import DjApp.Client.SnapshotProperties
import DjApp.System.Invariant

/-! A room under a controller: what the controller's client owes the room, and how every
other member's client comes to show the same. -/

set_option autoImplicit false

namespace DjApp.System

open Library
open Server (ConnId Frame Room RoomConfig Registration IsMember Transition framesTo)
open Client (ClientApp ClientMessage Decks PlaybackState StateDelta Standing deltasOf)

section RoomDecks

/-- The decks of the room as a client shows them. -/
def roomDecks (room : Room) : Decks := Decks.ofRoom room.decks

/-- A delta that leaves nothing of the deck it is applied to. -/
def Full (delta : StateDelta) : Prop :=
  ∀ left right : PlaybackState, left.merge delta = right.merge delta

theorem full_fullResyncDelta (deck : DeckId) (state : PlaybackState) :
    Full (Client.fullResyncDelta deck state) := fun _ _ => rfl

theorem roomDecks_applyDelta {room : Room} (images : ∀ entry ∈ room.decks, World.IsImage entry.2)
    (delta : StateDelta) :
    roomDecks (Server.applyDelta room delta.deck delta.toChanges) =
      (roomDecks room).overlay delta := by
  have image : World.IsImage ((room.decks.lookup delta.deck).getD Server.defaultDeckState) := by
    cases found : room.decks.lookup delta.deck with
    | none => exact ⟨{}, Client.toDeck_default.symm⟩
    | some deck => exact images _ (AssocList.mem_of_lookup found)
  obtain ⟨state, shape⟩ := image
  funext deck
  rw [Decks.overlay_apply]
  simp only [roomDecks, Decks.ofRoom, Server.applyDelta, Server.lookup_writeDeck]
  by_cases same : deck = delta.deck
  · subst same
    simp [shape, Client.assignChanges_toDeck]
  · simp [same]

theorem lookup_applyDelta {room : Room} {deck : DeckId} (present : room.decks.lookup deck ≠ none)
    (changed : DeckId) (changes : Server.Changes) :
    (Server.applyDelta room changed changes).decks.lookup deck ≠ none := by
  simp only [Server.applyDelta, Server.lookup_writeDeck]
  split
  · simp
  · exact present

theorem receive_delta (decks : Decks) (serverSeq : ℕ) (source : Server.ClientId)
    (delta : StateDelta) :
    decks.receive (.delta serverSeq source delta.deck delta.toChanges) = decks.overlay delta := by
  rw [Decks.receive, Client.ofChanges_toChanges]
  rfl

end RoomDecks

section Locking

variable {config : RoomConfig} {room : Room} {conn holder : ConnId}
  {registration controller : Registration}

/-- Once a member has received what is on its way, another's control locks its own. -/
theorem Follows.locked {app : ClientApp} {frames : List Frame}
    (follows : Follows room conn registration app frames) (valid : room.Valid config)
    (member : IsMember room conn registration) (holds : IsMember room holder controller)
    (controls : room.controllerId = some controller.id) (other : conn ≠ holder) :
    (frames.foldl Standing.receive app.standing).Locked := by
  rw [follows.stands, knowledgeOf, Standing.locked_ofReplica]
  have unlike : registration.id ≠ controller.id := fun same => other (member.conn_eq holds same)
  refine ⟨?_, ⟨controller.id, controller.name, .controller⟩, ?_, rfl⟩
  · simp [replicaOf, Room.roleOfId, controls, Ne.symm unlike]
  · refine (Server.mem_peersFor_iff valid).mpr ⟨holder, Ne.symm other, holds, ?_⟩
    simp [Room.roleOfId, controls]

end Locking

/-- The client of a member comes to show the room's decks, the settled ones at least. It
cannot change them from the frame on that tells it of the controller. -/
inductive Tracks (room : Room) (settled : DeckId → Prop) (app : ClientApp) (frames : List Frame) :
    Prop where
  | locked
      (locked : ∀ seen, seen <+: frames → (seen.foldl Standing.receive app.standing).Locked)
      (tracks : ∀ deck, settled deck →
        frames.foldl Decks.receive app.component.stateManager.states deck = roomDecks room deck)
  | awaits (earlier : List Frame) (turn : Frame) (later : List Frame)
      (queue : frames = earlier ++ turn :: later)
      (locked : ∀ seen, seen <+: later →
        ((earlier ++ turn :: seen).foldl Standing.receive app.standing).Locked)
      (tracks : ∀ deck, settled deck → ∀ start : Decks,
        (turn :: later).foldl Decks.receive start deck = roomDecks room deck)

/-- A frame that leaves the decks and the role of its receiver. -/
def Calm : Frame → Prop
  | .peerJoined _ _ _ | .peerLeft _ | .error _ _ => True
  | .welcome _ _ _ _ _ | .roleChanged _ _ | .delta _ _ _ _ | .snapshot _ _ => False

/-- The client of the controller: control is still on its way to it, or it has control and
has sent its decks but for what it still owes. -/
inductive Steers (room : Room) (id : Server.ClientId) (settled : DeckId → Prop) (app : ClientApp)
    (connection : Connection) : Prop where
  | granted (earlier later : List Frame)
      (queue : connection.down = earlier ++ .roleChanged id .controller :: later)
      (calm : ∀ frame ∈ later, Calm frame)
      (own : (earlier.foldl Standing.receive app.standing).known.ownClientId = id.text)
      (observes : (earlier.foldl Standing.receive app.standing).known.role = .observer)
  | holds (controls : app.component.role = .controller)
      (calm : ∀ frame ∈ connection.down, Calm frame)
      (owes : app.Owes ((roomDecks room).overlayAll (deltasOf connection.up)))
      (covered : ∀ deck, settled deck ∨
        ∃ delta ∈ deltasOf connection.up, delta.deck = deck ∧ Full delta)

/-- The decks that the controller has sent in full since it was granted control are
settled: the room has them, and every other member comes to show them. -/
structure Governed (world : World) (key : ℕ) (conn : ConnId) (registration : Registration)
    (settled : DeckId → Prop) : Prop where
  present : ∀ deck, settled deck → world.room.decks.lookup deck ≠ none
  steers : Steers world.room registration.id settled (world.apps key) (world.conns conn)
  tracks : ∀ other conn' registration', world.links other = some conn' →
    IsMember world.room conn' registration' → conn' ≠ conn →
    Tracks world.room settled (world.apps other) (world.conns conn').down

def World.Controlled (world : World) : Prop :=
  ∀ key conn registration, world.links key = some conn →
    IsMember world.room conn registration → world.room.controllerId = some registration.id →
    ∃ settled, Governed world key conn registration settled

section Tracking

variable {room : Room} {settled : DeckId → Prop} {app : ClientApp} {frames : List Frame}

theorem Tracks.locked_whole (tracks : Tracks room settled app frames) :
    (frames.foldl Standing.receive app.standing).Locked := by
  cases tracks with
  | locked locked tracks => exact locked frames List.prefix_rfl
  | awaits earlier turn later queue locked tracks =>
      rw [queue]
      exact locked later List.prefix_rfl

/-- A client that is not locked yet may change its decks; one that is keeps them. -/
theorem Tracks.congr {other : ClientApp} (tracks : Tracks room settled app frames)
    (stands : other.standing = app.standing)
    (kept : app.standing.Locked →
      other.component.stateManager.states = app.component.stateManager.states) :
    Tracks room settled other frames := by
  cases tracks with
  | locked locked tracks =>
      have same := kept (locked [] List.nil_prefix)
      exact .locked (stands ▸ locked) (same ▸ tracks)
  | awaits earlier turn later queue locked tracks =>
      exact .awaits earlier turn later queue (stands ▸ locked) tracks

theorem Tracks.deliver {frame : Frame} {rest : List Frame}
    (tracks : Tracks room settled app (frame :: rest)) :
    Tracks room settled (app.receive frame) rest := by
  have states : (app.receive frame).component.stateManager.states =
      Decks.receive app.component.stateManager.states frame := rfl
  cases tracks with
  | locked locked tracks =>
      refine .locked (fun seen prior => ?_) tracks
      rw [app.standing_receive]
      exact locked (frame :: seen) (List.prefix_cons_inj frame |>.mpr prior)
  | awaits earlier turn later queue locked tracks =>
      cases earlier with
      | nil =>
          obtain ⟨rfl, rfl⟩ := List.cons.inj queue
          refine .locked (fun seen prior => ?_) fun deck done => tracks deck done _
          rw [app.standing_receive]
          exact locked seen prior
      | cons first earlier =>
          obtain ⟨rfl, rfl⟩ := List.cons.inj queue
          refine .awaits earlier turn later rfl (fun seen prior => ?_) tracks
          rw [app.standing_receive]
          exact locked seen prior

/-- More frames, which keep the client locked and take it where the room goes. -/
theorem Tracks.append {after : Room} {done : DeckId → Prop} {more : List Frame}
    (tracks : Tracks room settled app frames)
    (locks : ∀ seen, seen <+: more →
      ((frames ++ seen).foldl Standing.receive app.standing).Locked)
    (moves : ∀ deck, done deck →
      (∀ start : Decks, more.foldl Decks.receive start deck = roomDecks after deck) ∨
      settled deck ∧ ∀ start : Decks, start deck = roomDecks room deck →
        more.foldl Decks.receive start deck = roomDecks after deck) :
    Tracks after done app (frames ++ more) := by
  cases tracks with
  | locked locked tracks =>
      refine .locked (fun seen prior => ?_) fun deck finished => ?_
      · rcases List.prefix_or_prefix_of_prefix prior (List.prefix_append frames more) with
          early | ⟨part, rfl⟩
        · exact locked seen early
        · exact locks part ((List.prefix_append_right_inj frames).mp prior)
      · rw [List.foldl_append]
        rcases moves deck finished with anew | ⟨before, kept⟩
        · exact anew _
        · exact kept _ (tracks deck before)
  | awaits earlier turn later queue locked tracks =>
      subst queue
      refine .awaits earlier turn (later ++ more) (by simp) (fun seen prior => ?_)
        fun deck finished start => ?_
      · rcases List.prefix_or_prefix_of_prefix prior (List.prefix_append later more) with
          early | ⟨part, rfl⟩
        · exact locked seen early
        · have whole := locks part ((List.prefix_append_right_inj later).mp prior)
          rwa [List.append_assoc, List.cons_append] at whole
      · rw [← List.cons_append, List.foldl_append]
        rcases moves deck finished with anew | ⟨before, kept⟩
        · exact anew _
        · exact kept _ (tracks deck before start)

end Tracking

end DjApp.System
