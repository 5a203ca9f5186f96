import DjApp.Server.Replica
import DjApp.Server.RoomProperties

/-! A member's replica is the room, in every run: each transition changes both alike. -/

set_option autoImplicit false

namespace DjApp.Server

open Library

/-!
## Frames to one member
-/

@[simp] theorem framesTo_nil (conn : ConnId) : framesTo conn [] = [] := rfl

@[simp] theorem framesTo_send_cons (conn target : ConnId) (frame : Frame) (rest : List Effect) :
    framesTo conn (.send target frame :: rest) =
      if target = conn then frame :: framesTo conn rest else framesTo conn rest := by
  by_cases same : target = conn <;> simp [framesTo, same]

@[simp] theorem framesTo_close_cons (conn target : ConnId) (code : Nat) (rest : List Effect) :
    framesTo conn (.close target code :: rest) = framesTo conn rest := by
  simp [framesTo]

theorem mem_framesTo_iff {conn : ConnId} {frame : Frame} {effects : List Effect} :
    frame ∈ framesTo conn effects ↔ .send conn frame ∈ effects := by
  induction effects with
  | nil => simp
  | cons effect rest ih =>
      cases effect with
      | send target sent =>
          by_cases same : target = conn
          · subst same
            simp [ih]
          · simp [ih, same, Ne.symm same]
      | close => simp [ih]

private theorem framesTo_map_send (conn : ConnId) (frame : Frame) (conns : List ConnId)
    (distinct : conns.Nodup) :
    framesTo conn (conns.map (.send · frame)) = if conn ∈ conns then [frame] else [] := by
  induction conns with
  | nil => rfl
  | cons target rest ih =>
      obtain ⟨fresh, distinct⟩ := List.nodup_cons.mp distinct
      by_cases same : target = conn
      · subst same
        simp [ih distinct, fresh]
      · have other : conn ≠ target := fun equal => same equal.symm
        simp [ih distinct, same, other]

/-- A broadcast is one frame to each live connection but the excepted one. -/
theorem framesTo_broadcast {room : Room} (distinctConns : (room.clients.map (·.2)).Nodup)
    (frame : Frame) (except : Option ConnId) (conn : ConnId) :
    framesTo conn (room.broadcast frame except) =
      if conn ∈ room.clients.map (·.2) ∧ some conn ≠ except then [frame] else [] := by
  rw [Room.broadcast, framesTo_map_send _ _ _ (distinctConns.filter _)]
  simp only [List.mem_filter, bne_iff_ne]

theorem isMember_iff_exists {room : Room} {conn : ConnId} :
    room.isMember conn = true ↔ ∃ registration, IsMember room conn registration := by
  constructor
  · intro live
    cases registered : room.conns conn with
    | none => simp [Room.isMember, registered] at live
    | some registration => exact ⟨registration, (isMember_eq_true_iff registered).mp live⟩
  · rintro ⟨registration, member⟩
    exact (isMember_eq_true_iff member.registered).mpr member

theorem IsMember.mem_conns {room : Room} {conn : ConnId} {registration : Registration}
    (member : IsMember room conn registration) : conn ∈ room.clients.map (·.2) :=
  List.mem_map.mpr ⟨_, AssocList.mem_of_lookup member.live, rfl⟩

/-- The live connections carry distinct ids. -/
theorem IsMember.conn_eq {room : Room} {left right : ConnId}
    {leftRegistration rightRegistration : Registration}
    (leftMember : IsMember room left leftRegistration)
    (rightMember : IsMember room right rightRegistration)
    (same : leftRegistration.id = rightRegistration.id) : left = right := by
  have found := leftMember.live
  rw [same, rightMember.live] at found
  exact (Option.some.inj found).symm

/-!
## Replicas that mirror the room
-/

/-- The replica of `conn` shows the room as it is. -/
structure Replica.Mirrors (replica : Replica) (room : Room) (conn : ConnId) : Prop where
  decks : ∀ deck, replica.decks deck = room.decks.lookup deck
  peers : replica.peers = room.peersFor conn
  role : room.roleOfId replica.self = replica.role
  self : room.connId conn = some replica.self

theorem lookup_writeDeck (deck other : DeckId) (write : Deck → Deck)
    (decks : List (DeckId × Deck)) :
    (writeDeck deck write decks).lookup other =
      if other = deck then some (write ((decks.lookup deck).getD defaultDeckState))
      else decks.lookup other := by
  induction decks with
  | nil =>
      by_cases same : other = deck
      · simp [writeDeck, same]
      · simp [writeDeck, List.lookup_cons, same, beq_false_of_ne same]
  | cons entry rest ih =>
      obtain ⟨id, state⟩ := entry
      by_cases here : id = deck
      · subst here
        by_cases same : other = id
        · simp [writeDeck, same]
        · simp [writeDeck, List.lookup_cons, same, beq_false_of_ne same]
      · have there : (deck == id) = false := beq_false_of_ne (Ne.symm here)
        simp only [writeDeck, here, ↓reduceIte, List.lookup_cons, ih, there]
        by_cases same : other = deck
        · subst same
          simp [there]
        · simp [same]

theorem entry_registration {config : RoomConfig} {room : Room} (valid : room.Valid config)
    {client : ClientId × ConnId} (member : client ∈ room.clients) :
    ∃ name, room.conns client.2 = some ⟨client.1, name⟩ := by
  have carried := valid.keyed client member
  cases registered : room.conns client.2 with
  | none => simp [Room.connId, registered] at carried
  | some registration =>
      obtain ⟨id, name⟩ := registration
      simp only [Room.connId, registered, Option.map_some, Option.some.injEq] at carried
      exact ⟨name, by rw [carried]⟩

/-- The peers of `conn` are the other members, with their names and roles. -/
theorem mem_peersFor_iff {config : RoomConfig} {room : Room} (valid : room.Valid config)
    {conn : ConnId} {peer : Peer} :
    peer ∈ room.peersFor conn ↔ ∃ other, other ≠ conn ∧
      IsMember room other ⟨peer.clientId, peer.name⟩ ∧ peer.role = room.roleOfId peer.clientId := by
  simp only [Room.peersFor, List.mem_filterMap]
  constructor
  · rintro ⟨client, member, found⟩
    by_cases own : client.2 = conn
    · simp [own] at found
    · obtain ⟨name, registered⟩ := entry_registration valid member
      simp only [own, ↓reduceIte, registered, Option.map_some, Option.some.injEq] at found
      subst found
      exact ⟨client.2, own, ⟨registered, AssocList.lookup_of_mem valid.distinctIds member⟩, rfl⟩
  · rintro ⟨other, unlike, member, role⟩
    refine ⟨(peer.clientId, other), AssocList.mem_of_lookup member.live, ?_⟩
    simp only [unlike, ↓reduceIte, member.registered, Option.map_some, ← role]

theorem roleOfId_remove {room : Room} {id other : ClientId} (stays : other ≠ id) :
    (room.remove id).roleOfId other = room.roleOfId other := by
  by_cases leaving : room.controllerId = some id
  · simp [Room.remove, Room.roleOfId, leaving, Ne.symm stays]
  · simp [Room.remove, Room.roleOfId, leaving]

section Steps

variable {config : RoomConfig} {room : Room} (valid : room.Valid config) (conn : ConnId)

include valid

theorem peersFor_register {joining : ConnId} {id : ClientId} (name : JsString)
    (unregistered : room.conns joining = none) (other : joining ≠ conn) :
    (room.register joining id name).peersFor conn =
      room.peersFor conn ++ [⟨id, name, room.roleOfId id⟩] := by
  simp only [Room.peersFor, Room.register, List.filterMap_append, List.filterMap_cons,
    List.filterMap_nil, if_neg other, Function.update_self, Option.map_some]
  refine congrArg (· ++ _) (List.filterMap_congr fun client member => ?_)
  have known : client.2 ≠ joining := fun same =>
    valid.not_mem_of_unregistered unregistered (List.mem_map.mpr ⟨client, member, same⟩)
  rw [Function.update_of_ne known]
  rfl

theorem peersFor_remove (id : ClientId) :
    (room.remove id).peersFor conn = (room.peersFor conn).filter (·.clientId ≠ id) := by
  simp only [Room.peersFor, Room.remove, List.filterMap_filter, List.filter_filterMap]
  apply List.filterMap_congr
  intro client member
  obtain ⟨name, registered⟩ := entry_registration valid member
  by_cases own : client.2 = conn
  · simp [own]
  · by_cases leaving : client.1 = id
    · simp [leaving, own, registered, Option.filter]
    · have role : (room.remove id).roleOfId client.1 = room.roleOfId client.1 :=
        roleOfId_remove leaving
      simp [own, registered, leaving, Option.filter]
      exact role

theorem peersFor_setController {id : ClientId} {holder : Option ClientId}
    (others : ∀ other, other ≠ id → (room.controllerId = some other ↔ holder = some other)) :
    ({ room with controllerId := holder } : Room).peersFor conn =
      Replica.setPeerRole (room.peersFor conn) id
        (({ room with controllerId := holder } : Room).roleOfId id) := by
  simp only [Room.peersFor, Replica.setPeerRole, List.map_filterMap]
  apply List.filterMap_congr
  intro client member
  obtain ⟨name, registered⟩ := entry_registration valid member
  by_cases own : client.2 = conn
  · simp [own]
  · by_cases changed : client.1 = id
    · simp [own, registered, changed]
    · simp [own, registered, changed, Room.roleOfId, others client.1 changed]

end Steps

private theorem lookup_filter_ne {id other : ClientId} {conn : ConnId}
    {clients : List (ClientId × ConnId)} (distinct : (clients.map (·.1)).Nodup)
    (found : (clients.filter (·.1 != id)).lookup other = some conn) :
    other ≠ id ∧ clients.lookup other = some conn := by
  obtain ⟨member, stays⟩ := List.mem_filter.mp (AssocList.mem_of_lookup found)
  exact ⟨by simpa using stays, AssocList.lookup_of_mem distinct member⟩

/-- A registered connection never joins again, under its own id or another. -/
theorem Transition.wasMember {config : RoomConfig} {room : Room} {call : Call} {handled : Handled}
    (transition : Transition config room call handled) (valid : room.Valid config)
    {conn : ConnId} {registration : Registration} (registered : room.conns conn ≠ none)
    (member : IsMember handled.1 conn registration) : IsMember room conn registration := by
  cases transition with
  | idle => exact member
  | join joining msg draws id name unregistered fresh free named isHello =>
      have other : conn ≠ joining := by
        rintro rfl
        exact registered unregistered
      obtain ⟨carried, live⟩ := member
      simp only [welcome, Room.register, Function.update_of_ne other] at carried live
      refine ⟨carried, ?_⟩
      rw [List.lookup_append] at live
      cases earlier : room.clients.lookup registration.id with
      | some found => simpa [earlier] using live
      | none =>
          rw [earlier, Option.none_or] at live
          have joined := List.mem_singleton.mp (AssocList.mem_of_lookup live)
          exact absurd (congrArg Prod.snd joined) other
  | claim => exact ⟨member.registered, member.live⟩
  | release => exact ⟨member.registered, member.live⟩
  | delta => exact ⟨member.registered, member.live⟩
  | leave leaving departed =>
      exact ⟨member.registered, (lookup_filter_ne valid.distinctIds member.live).2⟩

/-- The events of a call that changes nothing: errors and the room as it is. -/
private theorem idle_rowLog {room : Room} {conn : ConnId} {call : Call} {outcome : Outcome}
    (answers : ∀ effect ∈ outcome.effects, Answer room call.conn effect)
    (noDelta : acceptedDelta call outcome = none) (after : Room) :
    ∀ event ∈ rowLog conn ⟨room, call, outcome, after⟩, room.conns conn ≠ none ∧
      ((∃ code message, event = .frame (.error code message)) ∨
        event = .frame room.snapshotFrame) := by
  intro event member
  simp only [rowLog, ownDeltas, noDelta, Option.toList_none, ite_self, List.map_nil,
    List.append_nil, List.mem_map] at member
  obtain ⟨frame, sent, rfl⟩ := member
  cases answers _ (mem_framesTo_iff.mp sent) with
  | error registered code message => exact ⟨registered, .inl ⟨code, message, rfl⟩⟩
  | snapshot registered => exact ⟨registered, .inr rfl⟩

private theorem Replica.Mirrors.idle {replica : Replica} {room : Room} {conn : ConnId}
    (mirrors : replica.Mirrors room conn) {events : List LogEvent}
    (harmless : ∀ event ∈ events, (∃ code message, event = .frame (.error code message)) ∨
      event = .frame room.snapshotFrame) :
    (events.foldl Replica.apply replica).Mirrors room conn ∧ receivedDeltas events = [] := by
  induction events generalizing replica with
  | nil => exact ⟨mirrors, rfl⟩
  | cons event rest ih =>
      obtain ⟨head, tail⟩ := List.forall_mem_cons.mp harmless
      rcases head with ⟨code, message, rfl⟩ | rfl
      · exact ih mirrors tail
      · have refreshed : (replica.apply (.frame room.snapshotFrame)).Mirrors room conn :=
          ⟨fun _ => rfl, mirrors.peers, mirrors.role, mirrors.self⟩
        exact ih refreshed tail

/-- What a member puts over its copy is what the room writes. -/
theorem Replica.decks_overlay (replica : Replica) (deck : DeckId) (changes : Changes) :
    (replica.overlay deck changes).decks = Function.update replica.decks deck
      (some (assignChanges ((replica.decks deck).getD defaultDeckState) changes)) := rfl

theorem Replica.Mirrors.overlay {replica : Replica} {room : Room} {conn : ConnId}
    (mirrors : replica.Mirrors room conn) (deck : DeckId) (changes : Changes) :
    (replica.overlay deck changes).Mirrors (applyDelta room deck changes) conn where
  decks other := by
    rw [applyDelta, lookup_writeDeck, Replica.decks_overlay, mirrors.decks deck]
    by_cases same : other = deck
    · simp [same]
    · simp [same, mirrors.decks other]
  peers := mirrors.peers
  role := mirrors.role
  self := mirrors.self

theorem Replica.Mirrors.join {config : RoomConfig} {replica : Replica} {room : Room}
    {conn joining : ConnId} {id : ClientId} (name : JsString) (mirrors : replica.Mirrors room conn)
    (valid : room.Valid config) (unregistered : room.conns joining = none)
    (fresh : room.clients.lookup id = none) (other : joining ≠ conn) :
    (replica.receive (.peerJoined id name (room.roleOfId id))).Mirrors
      (room.register joining id name) conn where
  decks := mirrors.decks
  peers := by
    have unknown : (room.peersFor conn).any (·.clientId = id) = false := by
      apply List.any_eq_false.mpr
      intro peer present
      obtain ⟨known, _, member, _⟩ := (mem_peersFor_iff valid).mp present
      intro same
      have live := member.live
      rw [of_decide_eq_true same, fresh] at live
      cases live
    rw [peersFor_register valid conn name unregistered other, Replica.receive, mirrors.peers,
      Replica.addOrUpdatePeer, unknown]
    rfl
  role := mirrors.role
  self := by
    have kept := Function.update_of_ne (Ne.symm other) (some ⟨id, name⟩) room.conns
    simpa [Room.connId, Room.register, kept, Replica.receive] using mirrors.self

theorem not_self_of_mem_peersFor {config : RoomConfig} {room : Room} (valid : room.Valid config)
    {conn : ConnId} {registration : Registration} (member : IsMember room conn registration)
    {peer : Peer} (present : peer ∈ room.peersFor conn) : peer.clientId ≠ registration.id := by
  obtain ⟨other, unlike, live, _⟩ := (mem_peersFor_iff valid).mp present
  intro same
  exact unlike (live.conn_eq member same)

theorem setPeerRole_of_absent {peers : List Peer} {changed : ClientId} (role : Role)
    (absent : ∀ peer ∈ peers, peer.clientId ≠ changed) :
    Replica.setPeerRole peers changed role = peers := by
  have kept : Replica.setPeerRole peers changed role = peers.map id :=
    List.map_congr_left fun peer member => by simp [absent peer member]
  rw [kept, List.map_id]

theorem Replica.Mirrors.self_eq {replica : Replica} {room : Room} {conn : ConnId}
    {registration : Registration} (mirrors : replica.Mirrors room conn)
    (member : IsMember room conn registration) : replica.self = registration.id := by
  have carried := mirrors.self
  simpa [Room.connId, member.registered, eq_comm] using carried

theorem Replica.Mirrors.setController {config : RoomConfig} {replica : Replica} {room : Room}
    {conn : ConnId} {registration : Registration} (mirrors : replica.Mirrors room conn)
    (valid : room.Valid config) (member : IsMember room conn registration)
    (id : ClientId) (holder : Option ClientId)
    (others : ∀ other, other ≠ id → (room.controllerId = some other ↔ holder = some other)) :
    (replica.receive (.roleChanged id (({ room with controllerId := holder } : Room).roleOfId id))
      ).Mirrors { room with controllerId := holder } conn := by
  have identity := mirrors.self_eq member
  have peers := peersFor_setController valid conn others
  by_cases own : id = replica.self
  · have absent : ∀ peer ∈ room.peersFor conn, peer.clientId ≠ id := fun peer present => by
      rw [own, identity]
      exact not_self_of_mem_peersFor valid member present
    rw [setPeerRole_of_absent _ absent] at peers
    simp only [Replica.receive, own, ↓reduceIte]
    exact ⟨mirrors.decks, mirrors.peers.trans peers.symm, rfl, mirrors.self⟩
  · simp only [Replica.receive, own, ↓reduceIte]
    refine ⟨mirrors.decks, ?_, ?_, mirrors.self⟩
    · rw [peers, mirrors.peers]
    · have same := mirrors.role
      simp only [Room.roleOfId, others replica.self (Ne.symm own)] at same
      exact same

theorem Replica.Mirrors.leave {config : RoomConfig} {replica : Replica} {room : Room}
    {conn : ConnId} (mirrors : replica.Mirrors room conn) (valid : room.Valid config)
    {id : ClientId} (other : replica.self ≠ id) :
    (replica.receive (.peerLeft id)).Mirrors (room.remove id) conn where
  decks := mirrors.decks
  peers := by
    rw [peersFor_remove valid conn, Replica.receive, mirrors.peers]
  role := (roleOfId_remove other).trans mirrors.role
  self := mirrors.self

/-!
## Steps of the room
-/

@[simp] theorem receivedDeltas_append (first second : List LogEvent) :
    receivedDeltas (first ++ second) = receivedDeltas first ++ receivedDeltas second := by
  simp [receivedDeltas]

theorem logOf_concat (conn : ConnId) (history : List Entry) (row : Entry) :
    logOf conn (history ++ [row]) = logOf conn history ++ rowLog conn row := by
  simp [logOf]

theorem othersDeltas_concat (conn : ConnId) (history : List Entry) (row : Entry) :
    othersDeltas conn (history ++ [row]) =
      othersDeltas conn history ++ (othersDelta conn row).toList := by
  simp only [othersDeltas, List.filterMap_append, List.filterMap_cons, List.filterMap_nil]
  cases othersDelta conn row <;> rfl

theorem replay_append {log : List LogEvent} {replica : Replica} (replayed : replay log = some replica)
    (more : List LogEvent) : replay (log ++ more) = some (more.foldl Replica.apply replica) := by
  unfold replay at replayed
  split at replayed
  · cases replayed
    simp [replay, List.foldl_append]
  · cases replayed

private theorem rowLog_noDelta {conn : ConnId} {room after : Room} {call : Call} {outcome : Outcome}
    (noDelta : acceptedDelta call outcome = none) :
    rowLog conn ⟨room, call, outcome, after⟩ = (framesTo conn outcome.effects).map .frame := by
  simp [rowLog, ownDeltas, noDelta]

private theorem othersDelta_noDelta {conn : ConnId} {room after : Room} {call : Call}
    {outcome : Outcome} (noDelta : acceptedDelta call outcome = none) :
    othersDelta conn ⟨room, call, outcome, after⟩ = none := by
  simp [othersDelta, noDelta]

theorem framesTo_welcome_other {room : Room} {joining conn : ConnId} {id : ClientId}
    {name : JsString} (other : joining ≠ conn) :
    framesTo conn (welcome room joining id name).2.effects =
      framesTo conn ((welcome room joining id name).1.broadcast
        (.peerJoined id name (room.roleOfId id)) (some joining)) := by
  simp only [welcome, framesTo_send_cons, if_neg other]
  rfl

/-- What a call does to the room, a member's part of the log does to its replica, and
the deltas in it are the ones the call accepted from others. -/
theorem Transition.mirrors {config : RoomConfig} {room : Room} {call : Call} {handled : Handled}
    (transition : Transition config room call handled) (valid : room.Valid config)
    {conn : ConnId} {registration : Registration} {replica : Replica}
    (mirrors : replica.Mirrors room conn) (member : IsMember room conn registration)
    (stays : IsMember handled.1 conn registration) :
    let row : Entry := ⟨room, call, handled.2, handled.1⟩
    ((rowLog conn row).foldl Replica.apply replica).Mirrors handled.1 conn ∧
      receivedDeltas (rowLog conn row) = (othersDelta conn row).toList := by
  have after := transition.valid valid
  have present := member.mem_conns
  cases transition with
  | idle call outcome answers noDelta =>
      dsimp only
      rw [othersDelta_noDelta noDelta]
      exact mirrors.idle fun event included => (idle_rowLog answers noDelta room event included).2
  | join joining msg draws id name unregistered fresh free named isHello =>
      have other : joining ≠ conn := by
        rintro rfl
        rw [member.registered] at unregistered
        cases unregistered
      have heard : framesTo conn (welcome room joining id name).2.effects =
          [.peerJoined id name (room.roleOfId id)] := by
        have announced := framesTo_broadcast after.distinctConns
          (.peerJoined id name (room.roleOfId id)) (some joining) conn
        rw [if_pos ⟨stays.mem_conns, by simpa using Ne.symm other⟩] at announced
        exact (framesTo_welcome_other other).trans announced
      dsimp only
      rw [rowLog_noDelta (acceptedDelta_join isHello),
        othersDelta_noDelta (acceptedDelta_join isHello), heard]
      exact ⟨mirrors.join name valid unregistered fresh other, rfl⟩
  | claim calling msg draws claimant claimantMember unclaimed isClaim =>
      have heard := framesTo_broadcast valid.distinctConns (.roleChanged claimant.id .controller)
        none conn
      rw [if_pos ⟨present, by simp⟩] at heard
      have moved := mirrors.setController valid member claimant.id (some claimant.id)
        fun other unlike => by simp [unclaimed, Ne.symm unlike]
      simp only [Room.roleOfId, ↓reduceIte] at moved
      dsimp only
      rw [rowLog_noDelta (acceptedDelta_claim isClaim),
        othersDelta_noDelta (acceptedDelta_claim isClaim), heard]
      exact ⟨moved, rfl⟩
  | release calling msg draws claimant claimantMember controls isRelease =>
      have heard := framesTo_broadcast valid.distinctConns (.roleChanged claimant.id .observer)
        none conn
      rw [if_pos ⟨present, by simp⟩] at heard
      have moved := mirrors.setController valid member claimant.id none
        fun other unlike => by simp [controls, Ne.symm unlike]
      simp only [Room.roleOfId, reduceCtorEq, ↓reduceIte] at moved
      dsimp only
      rw [rowLog_noDelta (acceptedDelta_release isRelease),
        othersDelta_noDelta (acceptedDelta_release isRelease), heard]
      exact ⟨moved, rfl⟩
  | delta calling msg draws source deck changes sourceMember controls validated =>
      have heard := framesTo_broadcast after.distinctConns
        (.delta (room.serverSeq + 1) source.id deck changes) (some calling) conn
      dsimp only
      by_cases own : calling = conn
      · -- Its own delta does not come back; the log has it from the acceptance.
        subst own
        rw [if_neg (by simp)] at heard
        simp only [rowLog, heard, ownDeltas, othersDelta, Call.conn, ↓reduceIte,
          acceptedDelta_delta calling draws validated, ne_eq, not_true_eq_false, and_false]
        exact ⟨mirrors.overlay deck changes, rfl⟩
      · rw [if_pos ⟨present, by simpa using Ne.symm own⟩] at heard
        have welcomed : (room.conns conn).isSome = true := by simp [member.registered]
        simp only [rowLog, heard, ownDeltas, othersDelta, Call.conn, own, ↓reduceIte, welcomed,
          acceptedDelta_delta calling draws validated, ne_eq, not_false_eq_true, and_self]
        exact ⟨mirrors.overlay deck changes, rfl⟩
  | leave leaving departed leavingMember =>
      have unlike : registration.id ≠ departed.id := (lookup_filter_ne valid.distinctIds stays.live).1
      have heard := framesTo_broadcast after.distinctConns (.peerLeft departed.id) none conn
      rw [if_pos ⟨stays.mem_conns, by simp⟩] at heard
      have identity : replica.self = registration.id := mirrors.self_eq member
      dsimp only
      rw [rowLog_noDelta rfl, othersDelta_noDelta rfl, heard]
      exact ⟨mirrors.leave valid (identity ▸ unlike), rfl⟩

theorem framesTo_welcome {room : Room} {conn : ConnId} {id : ClientId} {name : JsString}
    (distinctConns : ((room.register conn id name).clients.map (·.2)).Nodup) :
    framesTo conn (welcome room conn id name).2.effects =
      [.welcome id ((room.register conn id name).roleOfId id) room.serverSeq room.decks
        ((room.register conn id name).peersFor conn)] := by
  have announced := framesTo_broadcast distinctConns
    (.peerJoined id name ((room.register conn id name).roleOfId id)) (some conn) conn
  rw [if_neg (by simp)] at announced
  simp only [welcome, framesTo_send_cons, ↓reduceIte, announced]
  rfl

/-- A connection that is not welcomed yet, and is not by this call either, hears nothing. -/
theorem Transition.unheard {config : RoomConfig} {room : Room} {call : Call} {handled : Handled}
    (transition : Transition config room call handled) (valid : room.Valid config) {conn : ConnId}
    (unwelcomed : handled.1.conns conn = none) :
    room.conns conn = none ∧ rowLog conn ⟨room, call, handled.2, handled.1⟩ = [] := by
  have after := transition.valid valid
  have absent := after.not_mem_of_unregistered unwelcomed
  cases transition with
  | idle call outcome answers noDelta =>
      refine ⟨unwelcomed, List.eq_nil_iff_forall_not_mem.mpr fun event included => ?_⟩
      exact (idle_rowLog answers noDelta room event included).1 unwelcomed
  | join joining msg draws id name unregistered fresh free named isHello =>
      have other : joining ≠ conn := by
        rintro rfl
        simp [welcome, Room.register] at unwelcomed
      have before := unwelcomed
      simp only [welcome, Room.register, Function.update_of_ne (Ne.symm other)] at before
      refine ⟨before, ?_⟩
      have heard := framesTo_broadcast after.distinctConns
        (.peerJoined id name (room.roleOfId id)) (some joining) conn
      rw [if_neg fun audience => absent audience.1] at heard
      rw [rowLog_noDelta (acceptedDelta_join isHello), List.map_eq_nil_iff]
      exact (framesTo_welcome_other other).trans heard
  | claim calling msg draws claimant claimantMember unclaimed isClaim =>
      refine ⟨unwelcomed, ?_⟩
      rw [rowLog_noDelta (acceptedDelta_claim isClaim), framesTo_broadcast valid.distinctConns,
        if_neg fun audience => absent audience.1]
      rfl
  | release calling msg draws claimant claimantMember controls isRelease =>
      refine ⟨unwelcomed, ?_⟩
      rw [rowLog_noDelta (acceptedDelta_release isRelease), framesTo_broadcast valid.distinctConns,
        if_neg fun audience => absent audience.1]
      rfl
  | delta calling msg draws source deck changes sourceMember controls validated =>
      refine ⟨unwelcomed, ?_⟩
      have other : calling ≠ conn := fun same => absent (same ▸ sourceMember.mem_conns)
      have heard := framesTo_broadcast after.distinctConns
        (.delta (room.serverSeq + 1) source.id deck changes) (some calling) conn
      rw [if_neg fun audience => absent audience.1] at heard
      simp [rowLog, heard, ownDeltas, Call.conn, other]
  | leave leaving departed leavingMember =>
      refine ⟨unwelcomed, ?_⟩
      rw [rowLog_noDelta rfl, framesTo_broadcast after.distinctConns,
        if_neg fun audience => absent audience.1]
      rfl

theorem eq_of_registered {room : Room} {joining conn : ConnId} {id : ClientId} {name : JsString}
    (unwelcomed : room.conns conn = none)
    (registered : (room.register joining id name).conns conn ≠ none) : joining = conn := by
  by_contra other
  apply registered
  exact (Function.update_of_ne (Ne.symm other) _ _).trans unwelcomed

/-- The call that welcomes a connection starts its log with a mirror of the room. -/
theorem Transition.starts {config : RoomConfig} {room : Room} {call : Call} {handled : Handled}
    (transition : Transition config room call handled) (valid : room.Valid config) {conn : ConnId}
    (unwelcomed : room.conns conn = none) (welcomed : handled.1.conns conn ≠ none) :
    let row : Entry := ⟨room, call, handled.2, handled.1⟩
    (∃ replica, replay (rowLog conn row) = some replica ∧ replica.Mirrors handled.1 conn) ∧
      receivedDeltas (rowLog conn row) = [] := by
  have after := transition.valid valid
  cases transition with
  | idle | claim | release | delta | leave => exact absurd unwelcomed welcomed
  | join joining msg draws id name unregistered fresh free named isHello =>
      obtain rfl := eq_of_registered unwelcomed welcomed
      dsimp only
      rw [rowLog_noDelta (acceptedDelta_join isHello), framesTo_welcome after.distinctConns]
      refine ⟨⟨_, rfl, ?_⟩, rfl⟩
      exact ⟨fun _ => rfl, rfl, rfl, by simp [welcome, Room.register, Room.connId, Replica.ofWelcome]⟩

/-!
## Whole runs
-/

/-- The invariant of one connection's log: empty before the welcome, and the room's
mirror from then on for as long as the connection is a member. -/
structure Logged (config : RoomConfig) (conn : ConnId) (history : List Entry) (room : Room) :
    Prop where
  valid : room.Valid config
  unwelcomed : room.conns conn = none → logOf conn history = [] ∧ othersDeltas conn history = []
  mirrored : room.isMember conn = true → ∃ replica,
    replay (logOf conn history) = some replica ∧ replica.Mirrors room conn ∧
      receivedDeltas (logOf conn history) = othersDeltas conn history

theorem Logged.step {config : RoomConfig} {conn : ConnId} {history : List Entry} {room : Room}
    {call : Call} {handled : Handled} (logged : Logged config conn history room)
    (transition : Transition config room call handled) :
    Logged config conn (history ++ [⟨room, call, handled.2, handled.1⟩]) handled.1 := by
  have after := transition.valid logged.valid
  refine ⟨after, fun unwelcomed => ?_, fun live => ?_⟩
  · obtain ⟨before, silent⟩ := transition.unheard logged.valid unwelcomed
    obtain ⟨noLog, noDeltas⟩ := logged.unwelcomed before
    refine ⟨by rw [logOf_concat, noLog, silent]; rfl, ?_⟩
    rw [othersDeltas_concat, noDeltas]
    simp [othersDelta, before]
  · obtain ⟨registration, stays⟩ := isMember_iff_exists.mp live
    rw [logOf_concat, othersDeltas_concat, receivedDeltas_append]
    by_cases welcomed : room.conns conn = none
    · -- The connection joins by this call, so the log starts here.
      obtain ⟨noLog, noDeltas⟩ := logged.unwelcomed welcomed
      have registered : handled.1.conns conn ≠ none := by simp [stays.registered]
      obtain ⟨⟨replica, replayed, mirrors⟩, received⟩ :=
        transition.starts logged.valid welcomed registered
      refine ⟨replica, by rw [noLog]; exact replayed, mirrors, ?_⟩
      rw [noLog, noDeltas, received]
      simp [receivedDeltas, othersDelta, welcomed]
    · have member := transition.wasMember logged.valid welcomed stays
      obtain ⟨replica, replayed, mirrors, received⟩ :=
        logged.mirrored (isMember_iff_exists.mpr ⟨_, member⟩)
      obtain ⟨mirrorsAfter, receivedRow⟩ := transition.mirrors logged.valid mirrors member stays
      exact ⟨_, replay_append replayed _, mirrorsAfter, by rw [received, receivedRow]⟩

theorem logged_runRoom (config : RoomConfig) (conn : ConnId) (calls : List Call) :
    Logged config conn (roomTrace config calls) (runRoom config calls) :=
  Machine.history_invariant (Room.step config) (Logged config conn)
    ⟨Room.Valid.createRoom config, fun _ => ⟨rfl, rfl⟩, fun live => by
      simp [Room.isMember, createRoom] at live⟩
    (fun _ room call logged => logged.step (step_transition config room call)) calls

/-- The sequence numbers of accepted deltas only grow along a history. -/
structure Sequenced (conn : ConnId) (history : List Entry) (room : Room) : Prop where
  increasing : (othersDeltas conn history).Pairwise fun earlier later => earlier.1 < later.1
  bounded : ∀ delta ∈ othersDeltas conn history, delta.1 ≤ room.serverSeq

theorem Sequenced.step {config : RoomConfig} {conn : ConnId} {history : List Entry} {room : Room}
    {call : Call} {handled : Handled} (sequenced : Sequenced conn history room)
    (transition : Transition config room call handled) :
    Sequenced conn (history ++ [⟨room, call, handled.2, handled.1⟩]) handled.1 := by
  rcases transition.acceptedDelta_cases with
    ⟨noDelta, _, sameSeq⟩ | ⟨deck, changes, accepted, changed⟩
  · have unchanged : othersDeltas conn (history ++ [⟨room, call, handled.2, handled.1⟩]) =
        othersDeltas conn history := by
      simp [othersDeltas_concat, othersDelta, noDelta]
    exact ⟨unchanged ▸ sequenced.increasing, by rw [unchanged, sameSeq]; exact sequenced.bounded⟩
  · have next : handled.1.serverSeq = room.serverSeq + 1 := by rw [changed]; rfl
    have added : ∀ delta ∈ (othersDelta conn ⟨room, call, handled.2, handled.1⟩).toList,
        delta.1 = room.serverSeq + 1 := by
      intro delta member
      simp only [othersDelta, accepted, next, Option.map_some, Option.mem_toList] at member
      split at member
      · cases member
        rfl
      · cases member
    constructor
    · rw [othersDeltas_concat, List.pairwise_append]
      refine ⟨sequenced.increasing, ?_, fun earlier member later present => ?_⟩
      · cases othersDelta conn ⟨room, call, handled.2, handled.1⟩ <;> simp
      · rw [added later present]
        exact Nat.lt_succ_of_le (sequenced.bounded earlier member)
    · intro delta member
      rw [othersDeltas_concat] at member
      rw [next]
      rcases List.mem_append.mp member with earlier | latest
      · exact (sequenced.bounded delta earlier).trans (Nat.le_succ _)
      · exact (added delta latest).le

theorem sequenced_runRoom (config : RoomConfig) (conn : ConnId) (calls : List Call) :
    Sequenced conn (roomTrace config calls) (runRoom config calls) :=
  Machine.history_invariant (Room.step config) (Sequenced conn)
    ⟨List.Pairwise.nil, by simp [othersDeltas]⟩
    (fun _ room call sequenced => sequenced.step (step_transition config room call)) calls

/-- A live member's log, replayed from its welcome, is the room; the deltas in it are
exactly those the room accepted from others since, in the order of their numbers. -/
theorem replica_from_frames (config : RoomConfig) (calls : List Call) (conn : ConnId)
    (live : (runRoom config calls).isMember conn = true) :
    let room := runRoom config calls
    let log := logOf conn (roomTrace config calls)
    (∃ replica, replay log = some replica ∧
      (∀ deck, replica.decks deck = room.decks.lookup deck) ∧
      replica.peers = room.peersFor conn ∧
      (∀ peer, peer ∈ replica.peers ↔ ∃ other, other ≠ conn ∧
        IsMember room other ⟨peer.clientId, peer.name⟩ ∧
          peer.role = room.roleOfId peer.clientId) ∧
      room.connId conn = some replica.self ∧ replica.role = room.roleOfId replica.self) ∧
    (receivedDeltas log).Pairwise (fun earlier later => earlier.1 < later.1) ∧
    receivedDeltas log = othersDeltas conn (roomTrace config calls) := by
  obtain ⟨replica, replayed, mirrors, received⟩ := (logged_runRoom config conn calls).mirrored live
  refine ⟨⟨replica, replayed, mirrors.decks, mirrors.peers, fun peer => ?_, mirrors.self,
    mirrors.role.symm⟩, ?_, received⟩
  · rw [mirrors.peers]
    exact mem_peersFor_iff (runRoom_valid config calls)
  · rw [received]
    exact (sequenced_runRoom config conn calls).increasing

/-!
## An evening with two members
-/

section Examples

def eveningRoom : RoomConfig := { roomCode := js "sixteen-letters-", maxClients := 8 }

def plainMessage (type : String) : JsValue := .obj [(js "type", .str (js type))]

def gainMessage (deck : DeckId) (gain : ℚ) : JsValue :=
  .obj [(js "type", .str (js "delta")), (js "deck", .str (js deck.text)),
    (js "changes", .obj [(js "gain", .number gain)])]

/-- Bo controls after Ana, Cy is there for a while, and a delta of Ana's comes too late. -/
def eveningCalls : List Call :=
  [.message 0 (helloMessage 2 (js "Ana") eveningRoom.roomCode) fun _ => ⟨7⟩,
    .message 1 (helloMessage 2 (js "Bo") eveningRoom.roomCode) fun _ => ⟨8⟩,
    .message 2 (helloMessage 2 (js "Cy") eveningRoom.roomCode) fun _ => ⟨9⟩,
    .message 0 (plainMessage "claimControl") fun _ => ⟨7⟩,
    .message 0 (gainMessage .A (1 / 2)) fun _ => ⟨7⟩,
    .message 0 (plainMessage "releaseControl") fun _ => ⟨7⟩,
    .message 1 (plainMessage "claimControl") fun _ => ⟨8⟩,
    .message 1 (gainMessage .B (1 / 4)) fun _ => ⟨8⟩,
    .message 0 (gainMessage .B 2) fun _ => ⟨7⟩,
    .disconnect 2]

theorem replica_from_frames_evening :
    ∃ replica, replay (logOf 0 (roomTrace eveningRoom eveningCalls)) = some replica ∧
      replica.decks .A = some { defaultDeckState with gain := 1 / 2 } ∧
      replica.decks .B = some { defaultDeckState with gain := 1 / 4 } ∧
      replica.peers = [⟨⟨8⟩, js "Bo", .controller⟩] ∧
      receivedDeltas (logOf 0 (roomTrace eveningRoom eveningCalls)) =
        [(2, .B, { gain := some (1 / 4) })] := by
  obtain ⟨⟨replica, replayed, decks, peers, _⟩, _, received⟩ :=
    replica_from_frames eveningRoom eveningCalls 0 (by decide +kernel)
  exact ⟨replica, replayed, (decks .A).trans (by decide +kernel),
    (decks .B).trans (by decide +kernel), peers.trans (by decide +kernel),
    received.trans (by decide +kernel)⟩

end Examples

end DjApp.Server
