import DjApp.Server.TransportRuns
import DjApp.System.Proper

/-! The lifecycle of the transport's connections over whole runs. -/

set_option autoImplicit false

namespace DjApp.System

open Library
open Server

/-- What a run of the transport does with its connections, whatever order its events come in. -/
structure Lifecycle (config : TransportConfig) (rows : List TransportEntry) : Prop where
  counted : ∀ row ∈ rows,
    row.after.preHelloCount = row.after.records.countP (·.2.pendingHello)
  bounded : ∀ row ∈ rows,
    0 ≤ row.after.preHelloCount ∧ row.after.preHelloCount ≤ config.preHelloCeiling
  unnamed : ∀ row ∈ rows, ∀ entry ∈ row.after.records,
    entry.2.pendingHello = true → row.after.room.connId entry.1 = none
  closedOnce : ∀ conn, closings conn (rows.flatMap (·.output)) ≤ 1
  /-- A frame that reaches the room is that of a record not ejected, and nothing has been
  done since the event that brought it. -/
  heard : ∀ row ∈ rows, ∀ conn msg draws outcome,
    .called (.message conn msg draws) outcome ∈ row.output →
      (∃ record, row.before.records.lookup conn = some record ∧ record.ejected = false) ∧
        row.output.head? = some (.called (.message conn msg draws) outcome)
  stays : ∀ row ∈ rows, ∀ conn registration, IsMember row.before.room conn registration →
    row.input.event ≠ .socketClose conn →
      IsMember row.after.room conn registration ∧
        ∀ call outcome target, .called call outcome ∈ row.output →
          .send target (.peerLeft registration.id) ∉ outcome.effects
  /-- Each other member is told once, and nobody else is told anything. -/
  leaves : ∀ earlier row later, rows = earlier ++ row :: later →
    ∀ conn registration, IsMember row.before.room conn registration →
      row.input.event = .socketClose conn →
        (∃ outcome, calls row.output = [(.disconnect conn, outcome)] ∧
          Told row.before.room conn (.peerLeft registration.id) outcome.effects) ∧
          ∀ next ∈ row :: later, ∀ other, ¬ IsMember next.after.room conn other

section Rooms

variable {config : RoomConfig} {room : Room} {call : Call} {handled : Handled}

/-- A `peerLeft` is sent of the connection that leaves. -/
theorem peerLeft_imp (transition : Transition config room call handled) {target : ConnId}
    {id : ClientId} (sent : .send target (.peerLeft id) ∈ handled.2.effects) :
    ∃ conn registration, call = .disconnect conn ∧ IsMember room conn registration ∧
      registration.id = id := by
  have broadcast : ∀ {room : Room} {frame : Frame} {except : Option ConnId},
      .send target (.peerLeft id) ∈ room.broadcast frame except → frame = .peerLeft id := by
    intro room frame except announced
    obtain ⟨_, _, _, same⟩ := mem_broadcast_iff.mp announced
    cases same
    rfl
  cases transition with
  | idle call outcome answers noDelta => cases answers _ sent
  | join conn msg draws own name unregistered fresh free named isHello =>
      rcases List.mem_cons.mp sent with same | announced
      · cases same
      · cases broadcast announced
  | claim | release | delta => cases broadcast sent
  | leave conn registration member =>
      have same : Frame.peerLeft registration.id = .peerLeft id := broadcast sent
      exact ⟨conn, registration, rfl, member, Frame.peerLeft.inj same⟩

theorem step_disconnect_member {conn : ConnId} {registration : Registration}
    (member : IsMember room conn registration) :
    room.step config (.disconnect conn) =
      (room.remove registration.id,
        ⟨(room.remove registration.id).broadcast (.peerLeft registration.id), { ok := true }⟩) := by
  have live := (isMember_eq_true_iff member.registered).mpr member
  simp only [Room.step, handleDisconnect, member.registered, live, ↓reduceIte]

/-- The departure of a member is told to the others, once each. -/
theorem told_departure {roomConfig : RoomConfig} (valid : room.Valid roomConfig)
    {conn : ConnId} {registration : Registration} (member : IsMember room conn registration) :
    Told room conn (.peerLeft registration.id)
      ((room.remove registration.id).broadcast (.peerLeft registration.id)) := by
  refine (told_iff valid).mpr fun target => ?_
  have remains : target ∈ (room.remove registration.id).clients.map (·.2) ↔
      target ∈ room.clients.map (·.2) ∧ target ≠ conn := by
    simp only [Room.remove, List.mem_map, List.mem_filter, bne_iff_ne, ne_eq]
    constructor
    · rintro ⟨client, ⟨listed, unlike⟩, rfl⟩
      refine ⟨⟨client, listed, rfl⟩, fun same => unlike ?_⟩
      have keyed := valid.keyed client listed
      rw [same, Room.connId, member.registered] at keyed
      exact (Option.some.inj keyed).symm
    · rintro ⟨⟨⟨id, own⟩, listed, rfl⟩, unlike⟩
      refine ⟨⟨id, own⟩, ⟨listed, fun same => unlike ?_⟩, rfl⟩
      have found := AssocList.lookup_of_mem valid.distinctIds listed
      rw [show id = registration.id from same, member.live] at found
      exact (Option.some.inj found).symm
  have distinct : ((room.remove registration.id).clients.map (·.2)).Nodup :=
    valid.distinctConns.sublist (List.filter_sublist.map _)
  rw [framesTo_broadcast distinct]
  exact if_congr ((and_iff_left (Option.some_ne_none target)).trans remains) rfl rfl

end Rooms

section Events

variable {config : TransportConfig} {transport : Transport} {event : TransportEvent} {ran : Ran}

/-- A socket that has closed is gone, and its identity with it. -/
structure Gone (conn : ConnId) (transport : Transport) : Prop where
  older : conn < transport.nextConn
  unlisted : conn ∉ transport.records.map (·.1)

theorem Gone.moved {conn : ConnId} (gone : Gone conn transport)
    (moved : Transport.Moved config transport event ran) : Gone conn ran.1 := by
  obtain ⟨older, unlisted⟩ := gone
  cases moved with
  | aside aside =>
      refine ⟨aside.nextConn ▸ older, ?_⟩
      rw [aside.keys]
      exact unlisted
  | connection silent room nextConn keys =>
      refine ⟨nextConn ▸ older.trans (Nat.lt_succ_self _), ?_⟩
      rw [keys, List.mem_append, List.mem_singleton]
      rintro (listed | rfl)
      · exact unlisted listed
      · exact absurd older (lt_irrefl _)
  | message caller msg draws record handled found unejected transition called =>
      obtain ⟨rest, _, aside⟩ := called.shape
      refine ⟨aside.nextConn ▸ older, ?_⟩
      rw [show ran.1.records.map (·.1) = _ from aside.keys]
      exact unlisted
  | disconnect leaving record closed found called =>
      obtain ⟨rest, _, aside⟩ := called.shape
      refine ⟨aside.nextConn ▸ older, ?_⟩
      rw [show ran.1.records.map (·.1) = _ from aside.keys]
      intro listed
      obtain ⟨entry, member, rfl⟩ := List.mem_map.mp listed
      exact unlisted (List.mem_map_of_mem (List.mem_of_mem_filter member))

theorem Gone.not_isMember {conn : ConnId} {done : List Action} (gone : Gone conn transport)
    (tracked : Tracked config none done transport) (registration : Registration) :
    ¬ IsMember transport.room conn registration := by
  intro member
  exact gone.unlisted (tracked.members _ (AssocList.mem_of_lookup member.live))

theorem moved_heard (moved : Transport.Moved config transport event ran) {conn : ConnId}
    {msg : JsValue} {draws : Draws} {outcome : Outcome}
    (reached : .called (.message conn msg draws) outcome ∈ ran.2) :
    (∃ record, transport.records.lookup conn = some record ∧ record.ejected = false) ∧
      ran.2.head? = some (.called (.message conn msg draws) outcome) := by
  have listed := mem_calls_iff.mpr reached
  cases moved with
  | aside aside => simp [aside.silent] at listed
  | connection silent => simp [silent] at listed
  | message caller own drawn record handled found unejected transition called =>
      obtain ⟨rest, actions, aside⟩ := called.shape
      rw [actions, calls_called, show calls rest = [] from aside.silent,
        List.mem_singleton] at listed
      obtain ⟨⟨rfl, rfl, rfl⟩, rfl⟩ := Prod.mk.inj listed
      exact ⟨⟨record, found, unejected⟩, by rw [actions, List.head?_cons]⟩
  | disconnect leaving record closed found called =>
      obtain ⟨rest, actions, aside⟩ := called.shape
      rw [actions, calls_called, show calls rest = [] from aside.silent,
        List.mem_singleton] at listed
      cases listed

/-- A member whose socket does not close stays one, and nobody is told that it left. -/
theorem moved_stays (moved : Transport.Moved config transport event ran) {conn : ConnId}
    {registration : Registration} (member : IsMember transport.room conn registration)
    (unclosed : event ≠ .socketClose conn) :
    IsMember ran.1.room conn registration ∧
      ∀ call outcome target, .called call outcome ∈ ran.2 →
        .send target (.peerLeft registration.id) ∉ outcome.effects := by
  cases moved with
  | aside aside =>
      refine ⟨aside.room ▸ member, fun call outcome target reached => ?_⟩
      have listed := mem_calls_iff.mpr reached
      simp [aside.silent] at listed
  | connection silent room =>
      refine ⟨room ▸ member, fun call outcome target reached => ?_⟩
      have listed := mem_calls_iff.mpr reached
      simp [silent] at listed
  | message caller msg draws record handled found unejected transition called =>
      obtain ⟨rest, actions, aside⟩ := called.shape
      refine ⟨?_, fun call outcome target reached sent => ?_⟩
      · rw [show ran.1.room = handled.1 from aside.room]
        exact isMember_message transition member
      · have listed := mem_calls_iff.mpr reached
        rw [actions, calls_called, show calls rest = [] from aside.silent,
          List.mem_singleton] at listed
        obtain ⟨rfl, rfl⟩ := Prod.mk.inj listed
        obtain ⟨_, _, isDisconnect, _⟩ := peerLeft_imp transition sent
        cases isDisconnect
  | disconnect leaving record closed found called =>
      obtain ⟨rest, actions, aside⟩ := called.shape
      have other : conn ≠ leaving := by
        rintro rfl
        exact unclosed closed
      have transition := step_transition config.room transport.room (.disconnect leaving)
      refine ⟨?_, fun call outcome target reached sent => ?_⟩
      · rw [show ran.1.room = _ from aside.room]
        exact isMember_disconnect other transition member
      · have listed := mem_calls_iff.mpr reached
        rw [actions, calls_called, show calls rest = [] from aside.silent,
          List.mem_singleton] at listed
        obtain ⟨rfl, rfl⟩ := Prod.mk.inj listed
        obtain ⟨gone, departed, ⟨⟩, departing, same⟩ := peerLeft_imp transition sent
        exact other (member.conn_eq departing same.symm)

/-- The close of a member's socket takes it out of the room. -/
theorem onClose_leaves {done : List Action} (tracked : Tracked config none done transport)
    {conn : ConnId} {registration : Registration}
    (member : IsMember transport.room conn registration)
    (sockets : ConnId → Frame → SocketState) :
    calls (transport.onClose conn sockets config).2 =
        [(.disconnect conn, ⟨(transport.room.remove registration.id).broadcast
          (.peerLeft registration.id), { ok := true }⟩)] ∧
      (transport.onClose conn sockets config).1.room = transport.room.remove registration.id ∧
      Gone conn (transport.onClose conn sockets config).1 := by
  have listed := tracked.members _ (AssocList.mem_of_lookup member.live)
  obtain ⟨⟨_, record⟩, present, rfl⟩ := List.mem_map.mp listed
  have found := AssocList.lookup_of_mem tracked.distinct present
  have called := Transport.called_onClose config transport _ sockets found
  rw [step_disconnect_member member] at called
  obtain ⟨rest, actions, aside⟩ := called.shape
  refine ⟨?_, aside.room, ?_, ?_⟩
  · rw [actions, calls_called, show calls rest = [] from aside.silent]
  · rw [show (transport.onClose _ sockets config).1.nextConn = _ from aside.nextConn]
    exact (tracked.settled_lookup found).older
  · rw [show (transport.onClose _ sockets config).1.records.map (·.1) = _ from aside.keys]
    intro kept
    obtain ⟨entry, member, same⟩ := List.mem_map.mp kept
    simp [same] at member

end Events

section Runs

variable (config : TransportConfig) (fl : ℚ → ℚ)

/-- The states around a row of a run, with what was done before it. -/
theorem tracked_row {inputs : List TransportInput} {row : TransportEntry}
    (member : row ∈ transportTrace config fl inputs) :
    ∃ done, Tracked config none done row.before ∧
      Tracked config none (done ++ row.output) row.after ∧
      Transport.Moved config row.before row.input.event (row.after, row.output) := by
  obtain ⟨earlier, later, _, shape⟩ := Machine.mem_trace _ member
  have tracked := Tracked.run config fl earlier
  have moved := Transport.moved config fl (transportAfter config fl earlier) row.input
  rw [shape]
  exact ⟨_, tracked, tracked.step fl row.input, moved⟩

theorem gone_trace {conn : ConnId} {transport : Transport} {done : List Action}
    (gone : Gone conn transport) (tracked : Tracked config none done transport)
    (inputs : List TransportInput) :
    ∀ row ∈ Machine.trace (Transport.step config fl) transport inputs, ∀ registration,
      ¬ IsMember row.after.room conn registration := by
  induction inputs generalizing transport done with
  | nil => simp
  | cons input rest ih =>
      have later := gone.moved (Transport.moved config fl transport input)
      have kept := tracked.step fl input
      intro row member
      rcases List.mem_cons.mp member with rfl | member
      · exact later.not_isMember kept
      · exact ih later kept row member

end Runs

/-- The slot of a pending hello is released once, a socket is closed at most once, and a
member is removed once, when its socket closes. -/
theorem transport_lifecycle (config : TransportConfig) (fl : ℚ → ℚ)
    (inputs : List TransportInput) : Lifecycle config (transportTrace config fl inputs) where
  counted := by
    intro row member
    obtain ⟨done, _, tracked, _⟩ := tracked_row config fl member
    exact tracked.counted
  bounded := by
    intro row member
    obtain ⟨done, _, tracked, _⟩ := tracked_row config fl member
    exact ⟨tracked.counted ▸ Int.natCast_nonneg _, tracked.bounded⟩
  unnamed := by
    intro row member entry listed pending
    obtain ⟨done, _, tracked, _⟩ := tracked_row config fl member
    rw [Room.connId, (tracked.settled entry listed).unnamed (by simp) pending]
    rfl
  closedOnce := (Tracked.run config fl inputs).once
  heard := by
    intro row member conn msg draws outcome reached
    obtain ⟨done, _, _, moved⟩ := tracked_row config fl member
    exact moved_heard moved reached
  stays := by
    intro row member conn registration isMember elsewhere
    obtain ⟨done, _, _, moved⟩ := tracked_row config fl member
    exact moved_stays moved isMember elsewhere
  leaves := by
    intro earlier row later shape conn registration isMember closes
    obtain ⟨first, input, rest, _, _, rfl, rfl⟩ := Machine.trace_split _ shape
    have tracked := Tracked.run config fl first
    have kept := tracked.step fl input
    have stepped : Transport.step config fl (transportAfter config fl first) input =
        (transportAfter config fl first).onClose conn input.sockets config := by
      rw [Transport.step, show input.event = .socketClose conn from closes]
    obtain ⟨called, room, gone⟩ := onClose_leaves tracked isMember input.sockets
    rw [← stepped] at called room gone
    refine ⟨⟨_, called, told_departure tracked.roomValid isMember⟩, ?_⟩
    · intro next listed other
      rcases List.mem_cons.mp listed with rfl | listed
      · exact gone.not_isMember kept other
      · exact gone_trace config fl gone kept rest next listed other

end DjApp.System
