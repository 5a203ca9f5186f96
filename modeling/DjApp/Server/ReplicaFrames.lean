import DjApp.Server.ReplicaProperties
import DjApp.Server.SentFrames

/-! What the frames a connection has received so far say of the room's members, at any
point between its welcome and the present. -/

set_option autoImplicit false

namespace DjApp.Server

open Library

def framesOf (conn : ConnId) (history : List Entry) : List Frame :=
  history.flatMap fun row => framesTo conn row.output.effects

def replayFrames (frames : List Frame) : Option Replica := replay (frames.map .frame)

theorem framesOf_concat (conn : ConnId) (history : List Entry) (row : Entry) :
    framesOf conn (history ++ [row]) = framesOf conn history ++ framesTo conn row.output.effects := by
  simp [framesOf]

theorem replayFrames_append {frames : List Frame} {replica : Replica}
    (replayed : replayFrames frames = some replica) (more : List Frame) :
    replayFrames (frames ++ more) = some (more.foldl Replica.receive replica) := by
  rw [replayFrames, List.map_append, replay_append replayed, List.foldl_map]
  rfl

/-- What a replica shows of the members. -/
structure Replica.SameMembers (left right : Replica) : Prop where
  peers : left.peers = right.peers
  role : left.role = right.role
  self : left.self = right.self

namespace Replica.SameMembers

variable {left right : Replica} (same : left.SameMembers right)

include same

theorem receive (frame : Frame) : (left.receive frame).SameMembers (right.receive frame) := by
  obtain ⟨peers, role, self⟩ := same
  cases frame with
  | welcome | snapshot | error => exact ⟨by simp [Replica.receive, peers, Replica.ofWelcome],
      by simp [Replica.receive, role, Replica.ofWelcome],
      by simp [Replica.receive, self, Replica.ofWelcome]⟩
  | peerJoined | peerLeft => exact ⟨by simp [Replica.receive, peers], role, self⟩
  | roleChanged id changed =>
      simp only [Replica.receive, self]
      split
      · exact ⟨peers, rfl, rfl⟩
      · exact ⟨by simp [peers], role, rfl⟩
  | delta => exact ⟨peers, role, self⟩

theorem foldl_receive (frames : List Frame) :
    (frames.foldl Replica.receive left).SameMembers (frames.foldl Replica.receive right) := by
  induction frames generalizing left right with
  | nil => exact same
  | cons frame rest ih => exact ih (same.receive frame)

end Replica.SameMembers

theorem Replica.SameMembers.foldl_ownDelta (replica : Replica) (deltas : List (DeckId × Changes)) :
    ((deltas.map fun delta => LogEvent.ownDelta delta.1 delta.2).foldl Replica.apply
      replica).SameMembers replica := by
  induction deltas generalizing replica with
  | nil => exact ⟨rfl, rfl, rfl⟩
  | cons delta rest ih =>
      obtain ⟨peers, role, self⟩ := ih (replica.overlay delta.1 delta.2)
      exact ⟨peers, role, self⟩

/-- Of a row of a log, the frames alone tell of the members. -/
theorem Replica.SameMembers.foldl_rowLog (conn : ConnId) (row : Entry) (replica : Replica) :
    ((rowLog conn row).foldl Replica.apply replica).SameMembers
      ((framesTo conn row.output.effects).foldl Replica.receive replica) := by
  have frames : ((framesTo conn row.output.effects).map .frame).foldl Replica.apply replica =
      (framesTo conn row.output.effects).foldl Replica.receive replica := List.foldl_map
  rw [rowLog, List.foldl_append, frames]
  exact foldl_ownDelta _ _

/-- A frame that says nothing of the members. -/
def Frame.Steady : Frame → Prop
  | .snapshot _ _ | .error _ _ => True
  | _ => False

theorem Frame.Steady.foldl_peers {frames : List Frame} (steady : ∀ frame ∈ frames, frame.Steady)
    (replica : Replica) : (frames.foldl Replica.receive replica).peers = replica.peers := by
  induction frames generalizing replica with
  | nil => rfl
  | cons frame rest ih =>
      obtain ⟨first, others⟩ := List.forall_mem_cons.mp steady
      rw [List.foldl_cons, ih others]
      cases frame with
      | snapshot | error => rfl
      | welcome | peerJoined | peerLeft | roleChanged | delta => cases first

theorem isMember_of_mem_conns {config : RoomConfig} {room : Room} (valid : room.Valid config)
    {conn : ConnId} (present : conn ∈ room.clients.map (·.2)) :
    ∃ registration, IsMember room conn registration := by
  obtain ⟨client, member, rfl⟩ := List.mem_map.mp present
  obtain ⟨name, registered⟩ := entry_registration valid member
  exact ⟨⟨client.1, name⟩, registered, AssocList.lookup_of_mem valid.distinctIds member⟩

/-- Each member but one is sent the frame once, and nobody else is sent anything. -/
structure Told (room : Room) (except : ConnId) (frame : Frame) (effects : List Effect) : Prop where
  others : ∀ other known, IsMember room other known → other ≠ except →
    framesTo other effects = [frame]
  rest : ∀ target, (∀ known, IsMember room target known → target = except) →
    framesTo target effects = []

theorem told_iff {config : RoomConfig} {room : Room} (valid : room.Valid config) {except : ConnId}
    {frame : Frame} {effects : List Effect} :
    Told room except frame effects ↔ ∀ target, framesTo target effects =
      if target ∈ room.clients.map (·.2) ∧ target ≠ except then [frame] else [] := by
  constructor
  · intro told target
    split
    · rename_i other
      obtain ⟨known, member⟩ := isMember_of_mem_conns valid other.1
      exact told.others target known member other.2
    · rename_i apart
      exact told.rest target fun known member => by_contra fun other =>
        apart ⟨member.mem_conns, other⟩
  · intro sent
    refine ⟨fun other known member unlike => ?_, fun target alone => ?_⟩
    · rw [sent, if_pos ⟨member.mem_conns, unlike⟩]
    · rw [sent, if_neg]
      rintro ⟨listed, unlike⟩
      obtain ⟨known, member⟩ := isMember_of_mem_conns valid listed
      exact unlike (alone known member)

/-- A connection that was welcomed before hears nothing of the members from a call, or
one frame as a member that it remains. -/
theorem Transition.heard {config : RoomConfig} {room : Room} {call : Call} {handled : Handled}
    (transition : Transition config room call handled) (valid : room.Valid config) {conn : ConnId}
    (welcomed : room.conns conn ≠ none) :
    (∀ frame ∈ framesTo conn handled.2.effects, frame.Steady) ∨
      (∃ frame, framesTo conn handled.2.effects = [frame]) ∧
        ∃ registration, IsMember handled.1 conn registration := by
  have after := transition.valid valid
  have single : ∀ (frame : Frame) (except : Option ConnId),
      (∀ heard ∈ framesTo conn (handled.1.broadcast frame except), heard.Steady) ∨
        (∃ heard, framesTo conn (handled.1.broadcast frame except) = [heard]) ∧
          ∃ registration, IsMember handled.1 conn registration := by
    intro frame except
    rw [framesTo_broadcast after.distinctConns]
    by_cases audience : conn ∈ handled.1.clients.map (·.2) ∧ some conn ≠ except
    · rw [if_pos audience]
      exact .inr ⟨⟨frame, rfl⟩, isMember_of_mem_conns after audience.1⟩
    · rw [if_neg audience]
      exact .inl (by simp)
  cases transition with
  | idle call outcome answers noDelta =>
      left
      intro frame member
      cases answers _ (mem_framesTo_iff.mp member) with
      | error | snapshot => trivial
  | join joining msg draws id name unregistered fresh free named isHello =>
      have other : joining ≠ conn := by
        rintro rfl
        exact welcomed unregistered
      rw [framesTo_welcome_other other]
      exact single _ _
  | claim | release | delta | leave => exact single _ _

/-- What every prefix of a connection's frames says of the room, and the whole of them
to a member. -/
structure Heard (config : RoomConfig) (conn : ConnId) (history : List Entry) (room : Room) :
    Prop where
  valid : room.Valid config
  silent : room.conns conn = none → framesOf conn history = []
  listed : ∀ seen, seen <+: framesOf conn history → seen ≠ [] →
    ∃ replica, replayFrames seen = some replica ∧ replica.peers.length < config.maxClients
  welcomed : room.conns conn ≠ none → framesOf conn history ≠ []
  member : ∀ registration, IsMember room conn registration → ∃ replica,
    replayFrames (framesOf conn history) = some replica ∧ replica.peers = room.peersFor conn ∧
      replica.self = registration.id ∧ replica.role = room.roleOfId registration.id

section Steps

variable {config : RoomConfig} {conn : ConnId} {history : List Entry} {room : Room} {call : Call}
  {handled : Handled}

/-- A member that remains one keeps its picture of the members by the frames alone. -/
theorem Heard.member_step (heard : Heard config conn history room)
    (transition : Transition config room call handled) {registration : Registration}
    (stays : IsMember handled.1 conn registration) (welcomed : room.conns conn ≠ none) :
    ∃ replica,
      replayFrames (framesOf conn history ++ framesTo conn handled.2.effects) = some replica ∧
        replica.peers = handled.1.peersFor conn ∧ replica.self = registration.id ∧
        replica.role = handled.1.roleOfId registration.id := by
  have member := transition.wasMember heard.valid welcomed stays
  obtain ⟨replica, replayed, peers, self, role⟩ := heard.member registration member
  let mirror : Replica := { replica with decks := fun deck => room.decks.lookup deck }
  have mirrors : mirror.Mirrors room conn :=
    ⟨fun _ => rfl, peers, by rw [← self] at role; exact role.symm,
      by simp [mirror, Room.connId, member.registered, self]⟩
  have same : mirror.SameMembers replica := ⟨rfl, rfl, rfl⟩
  have after := (transition.mirrors heard.valid mirrors member stays).1
  have own := Replica.SameMembers.foldl_rowLog conn ⟨room, call, handled.2, handled.1⟩ mirror
  have frames := same.foldl_receive (framesTo conn handled.2.effects)
  have identity := after.self_eq stays
  refine ⟨_, replayFrames_append replayed _, ?_, ?_, ?_⟩
  · rw [← frames.peers, ← own.peers]
    exact after.peers
  · rw [← frames.self, ← own.self]
    exact identity
  · rw [← frames.role, ← own.role, ← identity]
    exact after.role.symm

/-- The call that welcomes a connection is the first it hears of. -/
theorem Heard.join_step (transition : Transition config room call handled)
    (valid : room.Valid config) (unwelcomed : room.conns conn = none)
    (welcomed : handled.1.conns conn ≠ none) :
    ∃ frame replica registration, framesTo conn handled.2.effects = [frame] ∧
      replayFrames [frame] = some replica ∧ replica.peers = handled.1.peersFor conn ∧
      IsMember handled.1 conn registration ∧ replica.self = registration.id ∧
      replica.role = handled.1.roleOfId registration.id := by
  have after := transition.valid valid
  cases transition with
  | idle | claim | release | delta | leave => exact absurd unwelcomed welcomed
  | join joining msg draws id name unregistered fresh free named isHello =>
      obtain rfl := eq_of_registered unwelcomed welcomed
      have present : (id, joining) ∈ (room.register joining id name).clients := by
        simp [Room.register]
      have member : IsMember (room.register joining id name) joining ⟨id, name⟩ :=
        ⟨by simp [Room.register], AssocList.lookup_of_mem after.distinctIds present⟩
      exact ⟨_, _, ⟨id, name⟩, framesTo_welcome after.distinctConns, rfl, rfl, member, rfl, rfl⟩

theorem Heard.step (heard : Heard config conn history room)
    (transition : Transition config room call handled) :
    Heard config conn (history ++ [⟨room, call, handled.2, handled.1⟩]) handled.1 := by
  have after := transition.valid heard.valid
  cases registered : room.conns conn with
  | none =>
      have silent := heard.silent registered
      cases joined : handled.1.conns conn with
      | none =>
          have unheard := (transition.unheard heard.valid joined).2
          rw [rowLog, List.append_eq_nil_iff, List.map_eq_nil_iff] at unheard
          have nothing : framesOf conn (history ++ [⟨room, call, handled.2, handled.1⟩]) = [] := by
            rw [framesOf_concat, silent, unheard.1]
            rfl
          refine ⟨after, fun _ => nothing, ?_, fun welcomed => absurd joined welcomed, ?_⟩
          · intro seen prior some
            rw [nothing] at prior
            exact absurd (List.prefix_nil.mp prior) some
          · intro registration member
            have registered := member.registered
            rw [joined] at registered
            cases registered
      | some registration =>
          have welcomed : handled.1.conns conn ≠ none := by simp [joined]
          obtain ⟨frame, replica, own, single, replayed, peers, member, self, role⟩ :=
            Heard.join_step transition heard.valid registered welcomed
          have whole : framesOf conn (history ++ [⟨room, call, handled.2, handled.1⟩]) = [frame] := by
            rw [framesOf_concat, silent]
            exact single
          refine ⟨after, fun absent => absurd absent welcomed, ?_, fun _ => by simp [whole], ?_⟩
          · intro seen prior some
            rw [whole] at prior
            rcases List.prefix_cons_iff.mp prior with rfl | ⟨rest, rfl, nothing⟩
            · exact absurd rfl some
            · obtain rfl := List.prefix_nil.mp nothing
              refine ⟨replica, replayed, ?_⟩
              rw [peers]
              exact (length_peersFor_lt member.mem_conns).trans_le after.capacity
          · intro other otherMember
            obtain rfl : own = other :=
              Option.some.inj (member.registered.symm.trans otherMember.registered)
            rw [whole]
            exact ⟨replica, replayed, peers, self, role⟩
  | some registration =>
      have before : room.conns conn ≠ none := by simp [registered]
      have whole : framesOf conn (history ++ [⟨room, call, handled.2, handled.1⟩]) =
          framesOf conn history ++ framesTo conn handled.2.effects := framesOf_concat _ _ _
      refine ⟨after, fun absent => ?_, ?_, fun _ => ?_, fun own stays => ?_⟩
      · exact absurd ((transition.unheard heard.valid absent).1) before
      · intro seen prior some
        rw [whole] at prior
        rcases List.prefix_or_prefix_of_prefix prior (List.prefix_append _ _) with
          earlier | ⟨part, rfl⟩
        · exact heard.listed seen earlier some
        have part := (List.prefix_append_right_inj _).mp prior
        rcases transition.heard heard.valid before with steady | ⟨⟨frame, single⟩, own, stays⟩
        · obtain ⟨replica, replayed, bounded⟩ :=
            heard.listed _ List.prefix_rfl (heard.welcomed before)
          refine ⟨_, replayFrames_append replayed _, ?_⟩
          rw [Frame.Steady.foldl_peers fun frame member => steady frame (part.subset member)]
          exact bounded
        · rw [single] at part
          rcases List.prefix_cons_iff.mp part with rfl | ⟨rest, rfl, nothing⟩
          · rw [List.append_nil] at some ⊢
            exact heard.listed _ List.prefix_rfl some
          · obtain rfl := List.prefix_nil.mp nothing
            obtain ⟨replica, replayed, peers, _⟩ := heard.member_step transition stays before
            rw [single] at replayed
            refine ⟨replica, replayed, ?_⟩
            rw [peers]
            exact (length_peersFor_lt stays.mem_conns).trans_le after.capacity
      · rw [whole]
        simp [heard.welcomed before]
      · rw [whole]
        exact heard.member_step transition stays before

end Steps

theorem heard_runRoom (config : RoomConfig) (conn : ConnId) (calls : List Call) :
    Heard config conn (roomTrace config calls) (runRoom config calls) :=
  Machine.history_invariant (Room.step config) (Heard config conn)
    { valid := Room.Valid.createRoom config
      silent := fun _ => rfl
      listed := fun seen prior some => absurd (List.prefix_nil.mp prior) some
      welcomed := fun welcomed => absurd rfl welcomed
      member := fun registration member => by cases member.registered }
    (fun _ room call heard => heard.step (step_transition config room call)) calls

theorem framesOf_valid (config : RoomConfig) (conn : ConnId) (calls : List Call) :
    ∀ frame ∈ framesOf conn (roomTrace config calls), frame.Valid config := by
  intro frame member
  obtain ⟨row, rowMember, sent⟩ := List.mem_flatMap.mp member
  exact (roomTrace_frames rowMember (mem_framesTo_iff.mp sent)).1

end DjApp.Server
