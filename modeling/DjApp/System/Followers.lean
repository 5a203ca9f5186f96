import DjApp.Client.Standing
import DjApp.System.Messages

/-! How a member's client keeps up with its room: once it has received what is on its
way, it knows the members as they are, and it never takes a delta for one out of order. -/

set_option autoImplicit false

namespace DjApp.System

open Library
open Server (ConnId Frame Room RoomConfig Registration IsMember Transition Replica framesTo)
open Client (ClientApp Knowledge Standing nextSeq seenSeq)

section Sequence

def missed (lastSeen : Option ℕ) : Frame → Bool
  | .delta serverSeq _ _ _ => ClientApp.needsSnapshot lastSeen (seenSeq serverSeq)
  | _ => false

/-- No frame of the queue makes a client ask for a snapshot. -/
def Unmissed : Option ℕ → List Frame → Prop
  | _, [] => True
  | lastSeen, frame :: rest => missed lastSeen frame = false ∧ Unmissed (nextSeq lastSeen frame) rest

theorem unmissed_append (lastSeen : Option ℕ) (first second : List Frame) :
    Unmissed lastSeen (first ++ second) ↔
      Unmissed lastSeen first ∧ Unmissed (first.foldl nextSeq lastSeen) second := by
  induction first generalizing lastSeen with
  | nil => simp [Unmissed]
  | cons frame rest ih => simp only [List.cons_append, Unmissed, ih, List.foldl_cons, and_assoc]

/-- A client whose queue ends with a sequence number of the room, and misses nothing. -/
structure UpToDate (serverSeq : ℕ) (lastSeen : Option ℕ) (frames : List Frame) : Prop where
  unmissed : Unmissed lastSeen frames
  seen : ∃ last, frames.foldl nextSeq lastSeen = some last ∧ last ≤ serverSeq

theorem UpToDate.append {before after : ℕ} {lastSeen : Option ℕ} {first second : List Frame}
    (upToDate : UpToDate before lastSeen first)
    (more : ∀ last, last ≤ before → UpToDate after (some last) second) :
    UpToDate after lastSeen (first ++ second) := by
  obtain ⟨unmissed, last, seen, small⟩ := upToDate
  obtain ⟨later, end_⟩ := more last small
  rw [← seen] at later end_
  exact ⟨(unmissed_append _ _ _).mpr ⟨unmissed, later⟩, by rwa [List.foldl_append]⟩

theorem seenSeq_of_lt {serverSeq : ℕ} (small : serverSeq < 2 ^ 31) :
    seenSeq serverSeq = some serverSeq := if_pos small

variable {serverSeq last : ℕ} (small : serverSeq < 2 ^ 31)

include small

theorem upToDate_delta (earlier : last < serverSeq) (source : Server.ClientId) (deck : DeckId)
    (changes : Server.Changes) :
    UpToDate serverSeq (some last) [.delta serverSeq source deck changes] := by
  refine ⟨⟨?_, trivial⟩, serverSeq, ?_, le_rfl⟩
  · simp [missed, seenSeq_of_lt small, ClientApp.needsSnapshot, earlier]
  · simp [nextSeq, seenSeq_of_lt small]

theorem upToDate_welcome (lastSeen : Option ℕ) (id : Server.ClientId) (role : Role)
    (decks : List (DeckId × Server.Deck)) (peers : List Server.Peer) :
    UpToDate serverSeq lastSeen [.welcome id role serverSeq decks peers] := by
  refine ⟨⟨rfl, trivial⟩, serverSeq, ?_, le_rfl⟩
  simp [nextSeq, seenSeq_of_lt small]

omit small in
/-- A frame without a sequence number. -/
theorem upToDate_plain (le : last ≤ serverSeq) {frame : Frame} (plain : missed (some last) frame = false)
    (same : nextSeq (some last) frame = some last) : UpToDate serverSeq (some last) [frame] :=
  ⟨⟨plain, trivial⟩, last, same, le⟩

theorem upToDate_answers {room : Room} {conn caller : ConnId} (le : last ≤ room.serverSeq)
    (current : room.serverSeq = serverSeq) {frames : List Frame}
    (answers : ∀ frame ∈ frames, Server.Answer room caller (.send conn frame)) :
    UpToDate serverSeq (some last) frames := by
  induction frames generalizing last with
  | nil => exact ⟨trivial, last, rfl, current ▸ le⟩
  | cons frame rest ih =>
      obtain ⟨first, others⟩ := List.forall_mem_cons.mp answers
      have single : UpToDate serverSeq (some last) [frame] := by
        cases first with
        | error => exact upToDate_plain (current ▸ le) rfl rfl
        | snapshot =>
            refine ⟨⟨rfl, trivial⟩, room.serverSeq, ?_, current.le⟩
            simp [Room.snapshotFrame, nextSeq, seenSeq_of_lt (current ▸ small)]
      exact single.append fun next nextLe => ih (current ▸ nextLe) others

end Sequence

/-- What a call sends to a connection that was let in before continues the sequence. -/
theorem upToDate_call {config : RoomConfig} {room : Room} {call : Server.Call}
    {handled : Server.Handled} (transition : Transition config room call handled)
    (valid : room.Valid config) {conn : ConnId} (registered : room.conns conn ≠ none)
    (small : handled.1.serverSeq < 2 ^ 31) {last : ℕ} (le : last ≤ room.serverSeq) :
    UpToDate handled.1.serverSeq (some last) (framesTo conn handled.2.effects) := by
  have after := transition.valid valid
  have broadcast {frame : Frame} {except : Option ConnId}
      (single : UpToDate handled.1.serverSeq (some last) [frame])
      (unsent : last ≤ handled.1.serverSeq) :
      UpToDate handled.1.serverSeq (some last)
        (framesTo conn (handled.1.broadcast frame except)) := by
    rw [Server.framesTo_broadcast after.distinctConns]
    split
    · exact single
    · exact ⟨trivial, last, rfl, unsent⟩
  cases transition with
  | idle call outcome answers noDelta =>
      exact upToDate_answers small le rfl fun frame member =>
        answers _ (Server.mem_framesTo_iff.mp member)
  | join joining msg draws id name unregistered fresh free named isHello =>
      have other : joining ≠ conn := by
        rintro rfl
        exact registered unregistered
      rw [Server.framesTo_welcome_other other]
      exact broadcast (upToDate_plain le rfl rfl) le
  | claim | release | leave => exact broadcast (upToDate_plain le rfl rfl) le
  | delta =>
      have later := Nat.lt_succ_of_le le
      exact broadcast (upToDate_delta small later _ _ _) later.le

section Members

/-- The replica of a member that has heard of everything. -/
def replicaOf (room : Room) (conn : ConnId) (registration : Registration) : Replica where
  decks := fun deck => room.decks.lookup deck
  peers := room.peersFor conn
  role := room.roleOfId registration.id
  self := registration.id

def knowledgeOf (room : Room) (conn : ConnId) (registration : Registration) : Knowledge :=
  .ofReplica (replicaOf room conn registration)

theorem ofReplica_congr {left right : Replica} (same : left.SameMembers right) :
    Knowledge.ofReplica left = .ofReplica right := by
  rw [Knowledge.ofReplica, same.self, same.role, same.peers]
  rfl

theorem foldl_receive_of_steady {frames : List Frame} (steady : ∀ frame ∈ frames, frame.Steady)
    (known : Knowledge) : frames.foldl Knowledge.receive known = known := by
  induction frames with
  | nil => rfl
  | cons frame rest ih =>
      obtain ⟨first, others⟩ := List.forall_mem_cons.mp steady
      cases frame with
      | snapshot | error => exact ih others
      | welcome | peerJoined | peerLeft | roleChanged | delta => cases first

theorem sameMembers_of_steady {frames : List Frame} (steady : ∀ frame ∈ frames, frame.Steady)
    (replica : Replica) : (frames.foldl Replica.receive replica).SameMembers replica := by
  induction frames generalizing replica with
  | nil => exact ⟨rfl, rfl, rfl⟩
  | cons frame rest ih =>
      obtain ⟨first, others⟩ := List.forall_mem_cons.mp steady
      cases frame with
      | snapshot | error =>
          obtain ⟨peers, role, self⟩ := ih others (replica.receive _)
          exact ⟨peers, role, self⟩
      | welcome | peerJoined | peerLeft | roleChanged | delta => cases first

variable {config : RoomConfig} {room : Room} {call : Server.Call} {handled : Server.Handled}
  {conn : ConnId} {registration : Registration}

theorem sameMembers_call (transition : Transition config room call handled)
    (valid : room.Valid config) (member : IsMember room conn registration)
    (stays : IsMember handled.1 conn registration) :
    ((framesTo conn handled.2.effects).foldl Replica.receive
      (replicaOf room conn registration)).SameMembers (replicaOf handled.1 conn registration) := by
  have mirrors : (replicaOf room conn registration).Mirrors room conn :=
    ⟨fun _ => rfl, rfl, rfl, by simp [replicaOf, Room.connId, member.registered]⟩
  have after := (transition.mirrors valid mirrors member stays).1
  have log := Replica.SameMembers.foldl_rowLog conn ⟨room, call, handled.2, handled.1⟩
    (replicaOf room conn registration)
  have self := after.self_eq stays
  refine ⟨?_, ?_, ?_⟩
  · exact log.peers.symm.trans after.peers
  · rw [← log.role, ← after.role, self]
    rfl
  · exact log.self.symm.trans self

/-- A member's knowledge of the room follows the room by the frames of a call. -/
theorem knowledgeOf_call (transition : Transition config room call handled)
    (valid : room.Valid config) (named : room.Named) (member : IsMember room conn registration)
    (stays : IsMember handled.1 conn registration) (bounded : handled.1.clients.length ≤ 9) :
    (framesTo conn handled.2.effects).foldl Knowledge.receive (knowledgeOf room conn registration) =
      knowledgeOf handled.1 conn registration := by
  have same := sameMembers_call transition valid member stays
  have welcomed : room.conns conn ≠ none := by simp [member.registered]
  rcases transition.heard valid welcomed with steady | ⟨⟨frame, single⟩, _⟩
  · rw [foldl_receive_of_steady steady, knowledgeOf,
      ← ofReplica_congr (sameMembers_of_steady steady _)]
    exact ofReplica_congr same
  · have sent : .send conn frame ∈ handled.2.effects := by
      rw [← Server.mem_framesTo_iff, single]
      exact List.mem_singleton_self _
    have frameValid := (transition.frames valid named sent).1
    rw [single, List.foldl_cons, List.foldl_nil] at same ⊢
    have listed := Server.length_peersFor_lt stays.mem_conns
    have short : ((replicaOf room conn registration).receive frame).peers.length ≤
        Client.kMaxPeers := by
      rw [same.peers, Client.kMaxPeers]
      exact Nat.le_of_lt_succ (listed.trans_le bounded)
    have distinct : Client.Distinct (replicaOf room conn registration) :=
      Server.distinct_peersFor valid conn
    rw [knowledgeOf, Client.receive_ofReplica distinct frameValid short]
    exact ofReplica_congr same

end Members

/-- What the client of a member has received, and what is on its way to it, in order. -/
structure Follows (room : Room) (conn : ConnId) (registration : Registration) (app : ClientApp)
    (frames : List Frame) : Prop where
  stands : frames.foldl Standing.receive app.standing = ⟨knowledgeOf room conn registration, true⟩
  upToDate : UpToDate room.serverSeq app.lastSeenServerSeq frames

namespace Follows

variable {config : RoomConfig} {room : Room} {answered : Server.Call} {handled : Server.Handled}
  {conn : ConnId} {registration : Registration} {app : ClientApp} {frames : List Frame}

theorem call (follows : Follows room conn registration app frames)
    (transition : Transition config room answered handled) (valid : room.Valid config)
    (named : room.Named) (member : IsMember room conn registration)
    (stays : IsMember handled.1 conn registration) (bounded : handled.1.clients.length ≤ 9)
    (small : handled.1.serverSeq < 2 ^ 31) :
    Follows handled.1 conn registration app (frames ++ framesTo conn handled.2.effects) where
  stands := by
    rw [List.foldl_append, follows.stands, Standing.foldl_receive,
      knowledgeOf_call transition valid named member stays bounded, Bool.true_or]
  upToDate := follows.upToDate.append fun _ le =>
    upToDate_call transition valid (by simp [member.registered]) small le

/-- A client that is let in follows its room from the welcome on. -/
theorem welcome {id : Server.ClientId} {role : Role} {serverSeq : ℕ}
    {decks : List (DeckId × Server.Deck)} {peers : List Server.Peer}
    (valid : (Frame.welcome id role serverSeq decks peers).Valid config)
    (member : IsMember room conn registration) (self : id = registration.id)
    (shownRole : role = room.roleOfId registration.id) (shownPeers : peers = room.peersFor conn)
    (bounded : room.clients.length ≤ 9) (current : room.serverSeq = serverSeq)
    (small : serverSeq < 2 ^ 31) (app : ClientApp) :
    Follows room conn registration app [.welcome id role serverSeq decks peers] where
  stands := by
    have listed := Server.length_peersFor_lt member.mem_conns
    have short : peers.length ≤ Client.kMaxPeers := by
      rw [shownPeers, Client.kMaxPeers]
      exact Nat.le_of_lt_succ (listed.trans_le bounded)
    have received := @Client.receive_ofReplica config ⟨fun _ => none, [], role, id⟩
      List.nodup_nil (.welcome id role serverSeq decks peers) valid short
    have known : (app.standing.known.receive (.welcome id role serverSeq decks peers)) =
        knowledgeOf room conn registration :=
      received.trans (ofReplica_congr ⟨shownPeers, shownRole, self⟩)
    rw [List.foldl_cons, List.foldl_nil, Standing.receive, known, Client.isWelcome, Bool.or_true]
  upToDate := by
    rw [current]
    exact upToDate_welcome small _ id role decks peers

theorem deliver {frame : Frame} {rest : List Frame}
    (follows : Follows room conn registration app (frame :: rest)) :
    Follows room conn registration (app.receive frame) rest := by
  refine ⟨?_, follows.upToDate.unmissed.2, ?_⟩
  · rw [app.standing_receive]
    exact follows.stands
  · exact follows.upToDate.seen

theorem congr {other : ClientApp} (follows : Follows room conn registration app frames)
    (stands : other.standing = app.standing)
    (seen : other.lastSeenServerSeq = app.lastSeenServerSeq) :
    Follows room conn registration other frames :=
  ⟨stands ▸ follows.stands, seen ▸ follows.upToDate⟩

end Follows

end DjApp.System
