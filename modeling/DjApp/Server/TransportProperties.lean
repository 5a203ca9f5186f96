import DjApp.Server.RoomProperties
import DjApp.Server.Transport

/-! What holds of the transport's records while its handlers run: the count of the
pending hellos, the closing of each socket, and the room's members among the records. -/

set_option autoImplicit false

namespace DjApp.Server

open Library

/-!
## Closings and calls
-/

section Actions

def isClosing (conn : ConnId) : Action → Bool
  | .closeSocket target _ => target == conn
  | _ => false

def closings (conn : ConnId) (actions : List Action) : ℕ := actions.countP (isClosing conn)

def callOf : Action → Option (Call × Outcome)
  | .called call outcome => some (call, outcome)
  | _ => none

def calls (actions : List Action) : List (Call × Outcome) := actions.filterMap callOf

@[simp] theorem closings_nil (conn : ConnId) : closings conn [] = 0 := rfl

@[simp] theorem closings_append (conn : ConnId) (first second : List Action) :
    closings conn (first ++ second) = closings conn first + closings conn second :=
  List.countP_append

theorem closings_closeSocket (conn target : ConnId) (code : Nat) :
    closings conn [.closeSocket target code] = if target = conn then 1 else 0 := by
  simp [closings, isClosing, List.countP_cons]

@[simp] theorem calls_nil : calls [] = [] := rfl

@[simp] theorem calls_append (first second : List Action) :
    calls (first ++ second) = calls first ++ calls second :=
  List.filterMap_append

@[simp] theorem calls_called (call : Call) (outcome : Outcome) (rest : List Action) :
    calls (.called call outcome :: rest) = (call, outcome) :: calls rest := rfl

theorem mem_calls_iff {call : Call} {outcome : Outcome} {actions : List Action} :
    (call, outcome) ∈ calls actions ↔ .called call outcome ∈ actions := by
  unfold calls
  rw [List.mem_filterMap]
  constructor
  · rintro ⟨action, member, same⟩
    cases action with
    | called =>
        cases same
        exact member
    | closeSocket | refuseSocket | terminate | ping | transmit => cases same
  · exact fun member => ⟨_, member, rfl⟩

end Actions

/-!
## Records tracked by the room
-/

/-- What holds of the record of `conn` when `done` has been done. While a handler is
busy with a connection, its hello may be answered and its slot not yet released. -/
structure Settled (room : Room) (bound : ConnId) (busy : Option ConnId) (done : List Action)
    (conn : ConnId) (record : ConnectionRecord) : Prop where
  older : conn < bound
  unnamed : busy ≠ some conn → record.pendingHello = true → room.conns conn = none
  released : record.ejected = true → record.pendingHello = false
  unclosed : record.ejected = false → closings conn done = 0

structure Tracked (config : TransportConfig) (busy : Option ConnId) (done : List Action)
    (transport : Transport) : Prop where
  roomValid : transport.room.Valid config.room
  distinct : (transport.records.map (·.1)).Nodup
  counted : transport.preHelloCount = transport.records.countP (·.2.pendingHello)
  bounded : transport.preHelloCount ≤ config.preHelloCeiling
  settled : ∀ entry ∈ transport.records,
    Settled transport.room transport.nextConn busy done entry.1 entry.2
  unborn : ∀ conn, transport.nextConn ≤ conn →
    transport.room.conns conn = none ∧ closings conn done = 0
  once : ∀ conn, closings conn done ≤ 1
  members : ∀ client ∈ transport.room.clients, client.2 ∈ transport.records.map (·.1)

section Calling

variable {config : RoomConfig} {room : Room} {call : Call} {handled : Handled}

theorem attempt_transition (config : RoomConfig) (room : Room) (call : Call)
    (thrown : Option Fault) : Transition config room call (room.attempt config call thrown) := by
  unfold Room.attempt
  split
  · have noDelta : acceptedDelta call ⟨[], { ok := false }⟩ = none := by
      cases call <;> rfl
    exact .idle call _ (by simp) noDelta
  · exact step_transition config room call
  · exact step_transition config room call

/-- A message registers its sender and no other connection. -/
theorem Transition.conns_of_ne (transition : Transition config room call handled) {other : ConnId}
    (unlike : other ≠ call.conn) : handled.1.conns other = room.conns other := by
  cases transition with
  | idle | claim | release | delta | leave => rfl
  | join conn msg draws id name =>
      have different : other ≠ conn := unlike
      simp [welcome, Room.register, Function.update_of_ne different]

theorem Transition.mem_clients (transition : Transition config room call handled)
    {client : ClientId × ConnId} (member : client ∈ handled.1.clients) :
    client ∈ room.clients ∨ client.2 = call.conn := by
  cases transition with
  | idle | claim | release | delta => exact .inl member
  | join conn msg draws id name =>
      rcases List.mem_append.mp member with earlier | added
      · exact .inl earlier
      · obtain rfl := List.mem_singleton.mp added
        exact .inr rfl
  | leave => exact .inl (List.mem_of_mem_filter member)

theorem Transition.conns_of_disconnect {conn : ConnId}
    (transition : Transition config room (.disconnect conn) handled) :
    handled.1.conns = room.conns := by
  cases transition with
  | idle | leave => rfl

theorem not_mem_clients_disconnect (valid : room.Valid config) (conn : ConnId) :
    conn ∉ (room.step config (.disconnect conn)).1.clients.map (·.2) := by
  have transition := step_transition config room (.disconnect conn)
  have validAfter := transition.valid valid
  intro listed
  obtain ⟨⟨id, own⟩, member, rfl⟩ := List.mem_map.mp listed
  have carried := validAfter.keyed _ member
  cases registered : room.conns own with
  | none =>
      rw [Room.connId, transition.conns_of_disconnect, registered] at carried
      cases carried
  | some registration =>
      rw [Room.connId, transition.conns_of_disconnect, registered] at carried
      obtain rfl : registration.id = id := Option.some.inj carried
      simp only [Room.step, handleDisconnect, registered] at member
      split at member
      · simp [Room.remove] at member
      · rename_i stranger
        refine stranger ((isMember_eq_true_iff registered).mpr ⟨registered, ?_⟩)
        exact AssocList.lookup_of_mem valid.distinctIds member

end Calling

namespace Transport

variable {transport : Transport} {conn : ConnId} {record : ConnectionRecord}

theorem releaseHelloWatch_of_known (found : transport.records.lookup conn = some record) :
    transport.releaseHelloWatch conn =
      { transport.update conn ({ · with helloTimer := false, pendingHello := false }) with
        preHelloCount :=
          if record.pendingHello then transport.preHelloCount - 1
          else transport.preHelloCount } := by
  simp only [releaseHelloWatch, found]

theorem close_of_unknown (unknown : transport.records.lookup conn = none) (code : Nat) :
    transport.close conn code = (transport, []) := by
  simp only [close, unknown]

theorem close_of_ejected (found : transport.records.lookup conn = some record)
    (ejected : record.ejected = true) (code : Nat) :
    transport.close conn code = (transport, []) := by
  simp only [close, found, ejected, ↓reduceIte]

theorem close_of_unejected (found : transport.records.lookup conn = some record)
    (unejected : record.ejected = false) (code : Nat) :
    transport.close conn code =
      ({ transport.update conn ({ · with
            ejected := true, helloTimer := false, pendingHello := false, terminateTimer := true }) with
          preHelloCount :=
            if record.pendingHello then transport.preHelloCount - 1
            else transport.preHelloCount },
        [.closeSocket conn code]) := by
  have marked : (transport.update conn ({ · with ejected := true })).records.lookup conn =
      some { record with ejected := true } := by
    rw [update, AssocList.lookup_update, found]
    simp
  simp only [close, found, unejected, Bool.false_eq_true, ↓reduceIte,
    releaseHelloWatch_of_known marked]
  simp only [update, AssocList.update_update]
  rfl

/-!
## Handlers beside the room
-/

/-- What the handlers do without calling the room. -/
structure Aside (transport : Transport) (ran : Ran) : Prop where
  silent : calls ran.2 = []
  room : ran.1.room = transport.room
  nextConn : ran.1.nextConn = transport.nextConn
  keys : ran.1.records.map (·.1) = transport.records.map (·.1)

namespace Aside

variable {actions : List Action} {ran : Ran}

theorem stay (silent : calls actions = []) : Aside transport (transport, actions) :=
  ⟨silent, rfl, rfl, rfl⟩

theorem andThen {next : Transport → Ran} (first : Aside transport ran)
    (second : Aside ran.1 (next ran.1)) : Aside transport (ran.andThen next) where
  silent := by
    unfold Ran.andThen
    rw [calls_append, first.silent, second.silent, List.nil_append]
  room := second.room.trans first.room
  nextConn := second.nextConn.trans first.nextConn
  keys := second.keys.trans first.keys

theorem after {middle : Transport} (first : Aside transport (middle, []))
    (second : Aside middle ran) : Aside transport ran where
  silent := second.silent
  room := second.room.trans first.room
  nextConn := second.nextConn.trans first.nextConn
  keys := second.keys.trans first.keys

theorem update (transport : Transport) (conn : ConnId)
    (change : ConnectionRecord → ConnectionRecord)
    (silent : calls actions = []) : Aside transport (transport.update conn change, actions) :=
  ⟨silent, rfl, rfl, AssocList.keys_update _ _ _⟩

theorem releaseHelloWatch (transport : Transport) (conn : ConnId) (silent : calls actions = []) :
    Aside transport (transport.releaseHelloWatch conn, actions) := by
  unfold Transport.releaseHelloWatch
  split
  · exact stay silent
  · exact ⟨silent, rfl, rfl, by simp only [Transport.update, AssocList.keys_update]⟩

theorem close (transport : Transport) (conn : ConnId) (code : Nat) :
    Aside transport (transport.close conn code) := by
  cases found : transport.records.lookup conn with
  | none =>
      rw [close_of_unknown found]
      exact stay rfl
  | some record =>
      cases ejected : record.ejected with
      | true =>
          rw [close_of_ejected found ejected]
          exact stay rfl
      | false =>
          rw [close_of_unejected found ejected]
          exact ⟨rfl, rfl, rfl, by simp only [Transport.update, AssocList.keys_update]⟩

variable (sockets : ConnId → Frame → SocketState)

theorem send (transport : Transport) (conn : ConnId) (frame : Frame) :
    Aside transport (transport.send conn sockets frame) := by
  unfold Transport.send
  split
  · exact stay rfl
  · exact stay rfl
  all_goals
    split
    · exact close transport conn _
    · split <;> exact stay rfl

theorem performAll (transport : Transport) (effects : List Effect) :
    Aside transport (transport.performAll sockets effects) := by
  induction effects generalizing transport with
  | nil => exact stay rfl
  | cons effect rest ih =>
      refine andThen ?_ (ih _)
      cases effect with
      | send target frame => exact send sockets transport target frame
      | close target code => exact close transport target code

theorem countInvalid (transport : Transport) (conn : ConnId) :
    Aside transport (transport.countInvalid conn) := by
  unfold Transport.countInvalid
  split
  · exact stay rfl
  · rename_i record found
    dsimp only
    split
    · exact update transport conn _ rfl
    · exact (update transport conn _ rfl).after (close _ conn _)

theorem judge (transport : Transport) (conn : ConnId) (result : HandleResult) :
    Aside transport (transport.judge conn result) := by
  unfold Transport.judge
  split
  · exact update transport conn _ rfl
  · split
    · exact countInvalid transport conn
    · exact stay rfl

theorem handleMalformed (transport : Transport) (conn : ConnId) :
    Aside transport (transport.handleMalformed conn sockets) := by
  unfold Transport.handleMalformed
  split
  · exact close transport conn _
  · exact (send sockets transport conn _).andThen (countInvalid _ conn)

theorem charge (config : TransportConfig) (fl : ℚ → ℚ) (transport : Transport) (conn : ConnId)
    (record : ConnectionRecord) (now : ℤ) :
    Aside transport (transport.charge conn sockets config fl record now) := by
  unfold Transport.charge
  refine andThen ?_ ?_
  · split
    · exact (update transport conn _ rfl).after (send sockets _ conn _)
    · exact update transport conn _ rfl
  · cases (Server.charge fl config.rateLimit record.toRecord now).2.banned with
    | true => exact close _ conn _
    | false => exact stay rfl

end Aside

theorem known_of_keys {next : Transport} (found : transport.records.lookup conn = some record)
    (keys : next.records.map (·.1) = transport.records.map (·.1)) :
    ∃ held, next.records.lookup conn = some held := by
  cases present : next.records.lookup conn with
  | some held => exact ⟨held, rfl⟩
  | none =>
      have absent := AssocList.lookup_eq_none_iff_not_mem_keys.mp present
      rw [keys] at absent
      exact absurd (List.mem_map_of_mem (AssocList.mem_of_lookup found)) absent

end Transport

/-!
## Handlers that call the room
-/

namespace Tracked

variable {config : TransportConfig} {busy later : Option ConnId} {done actions : List Action}
  {transport : Transport} {conn : ConnId} {record : ConnectionRecord}

theorem createServer (config : TransportConfig) : Tracked config none [] .createServer where
  roomValid := Room.Valid.createRoom config.room
  distinct := by simp [Transport.createServer]
  counted := by simp [Transport.createServer]
  bounded := by
    have nonneg : (0 : ℤ) ≤ config.maxClients * preHelloCeilingFactor := by positivity
    simpa [Transport.createServer, TransportConfig.preHelloCeiling] using nonneg
  settled := by simp [Transport.createServer]
  unborn := by simp [Transport.createServer, createRoom]
  once := by simp
  members := by simp [Transport.createServer, createRoom]

theorem settled_lookup (tracked : Tracked config busy done transport)
    (found : transport.records.lookup conn = some record) :
    Settled transport.room transport.nextConn busy done conn record :=
  tracked.settled (conn, record) (AssocList.mem_of_lookup found)

/-- Actions that close no accepted socket. -/
theorem append (tracked : Tracked config busy done transport)
    (noClosing : ∀ conn, closings conn actions = 0) :
    Tracked config busy (done ++ actions) transport := by
  have same : ∀ conn, closings conn (done ++ actions) = closings conn done := by
    intro conn
    rw [closings_append, noClosing, Nat.add_zero]
  obtain ⟨roomValid, distinct, counted, bounded, settled, unborn, once, members⟩ := tracked
  refine ⟨roomValid, distinct, counted, bounded, ?_, ?_, ?_, members⟩
  · intro entry member
    obtain ⟨older, unnamed, released, unclosed⟩ := settled entry member
    exact ⟨older, unnamed, released, fun unejected => by rw [same, unclosed unejected]⟩
  · intro conn fresh
    rw [same]
    exact unborn conn fresh
  · intro conn
    rw [same]
    exact once conn

/-- The handler is done with `conn`, whose slot is released or whose id is still null. -/
theorem leaveOff (tracked : Tracked config busy done transport)
    (covers : ∀ other, other ≠ conn → busy = some other → later = some other)
    (free : ∀ record, transport.records.lookup conn = some record → record.pendingHello = true →
      transport.room.conns conn = none) :
    Tracked config later done transport := by
  refine { tracked with settled := ?_ }
  intro entry member
  obtain ⟨older, unnamed, released, unclosed⟩ := tracked.settled entry member
  refine ⟨older, ?_, released, unclosed⟩
  intro idle pending
  by_cases same : entry.1 = conn
  · subst same
    exact free entry.2 (AssocList.lookup_of_mem tracked.distinct member) pending
  · exact unnamed (fun working => idle (covers _ same working)) pending

/-- A change of one record that leaves its hello and its ejection as they are. -/
theorem update (tracked : Tracked config busy done transport) (conn : ConnId)
    {change : ConnectionRecord → ConnectionRecord}
    (pending : ∀ record, (change record).pendingHello = record.pendingHello)
    (ejected : ∀ record, (change record).ejected = record.ejected) :
    Tracked config busy done (transport.update conn change) where
  roomValid := tracked.roomValid
  distinct := by
    rw [Transport.update, AssocList.keys_update]
    exact tracked.distinct
  counted := by
    have same : (AssocList.update conn change transport.records).countP (·.2.pendingHello) =
        transport.records.countP (·.2.pendingHello) :=
      AssocList.countP_update_of_eq conn pending _
    exact tracked.counted.trans (congrArg Nat.cast same.symm)
  bounded := tracked.bounded
  settled := by
    apply AssocList.forall_update (fun entry member _ => tracked.settled entry member)
    intro record member
    obtain ⟨older, unnamed, released, unclosed⟩ := tracked.settled _ member
    refine ⟨older, ?_, ?_, ?_⟩
    · rw [pending]
      exact unnamed
    · rw [pending, ejected]
      exact released
    · rw [ejected]
      exact unclosed
  unborn := tracked.unborn
  once := tracked.once
  members := by
    rw [Transport.update, AssocList.keys_update]
    exact tracked.members

/-- A change of one record after which its slot is free. -/
theorem retire (tracked : Tracked config busy done transport)
    (covers : ∀ other, other ≠ conn → busy = some other → later = some other)
    (found : transport.records.lookup conn = some record)
    {change : ConnectionRecord → ConnectionRecord}
    (retired : (change record).pendingHello = false)
    (unclosed : (change record).ejected = false → closings conn (done ++ actions) = 0)
    (once : closings conn (done ++ actions) ≤ 1)
    (others : ∀ other, other ≠ conn → closings other actions = 0) :
    Tracked config later (done ++ actions)
      { transport.update conn change with
        preHelloCount :=
          if record.pendingHello then transport.preHelloCount - 1
          else transport.preHelloCount } := by
  have kept : ∀ other, other ≠ conn → closings other (done ++ actions) = closings other done := by
    intro other unlike
    rw [closings_append, others other unlike, Nat.add_zero]
  have older := (tracked.settled_lookup found).older
  refine ⟨tracked.roomValid, ?_, ?_, ?_, ?_, ?_, ?_, ?_⟩
  · rw [Transport.update, AssocList.keys_update]
    exact tracked.distinct
  · have moved := AssocList.countP_update tracked.distinct found change (·.pendingHello)
    have counted := tracked.counted
    simp only [retired, Bool.toNat_false, Nat.add_zero] at moved
    simp only [Transport.update]
    cases pending : record.pendingHello with
    | true =>
        simp only [pending, Bool.toNat_true] at moved
        simp only [↓reduceIte]
        omega
    | false =>
        simp only [pending, Bool.toNat_false] at moved
        simp only [Bool.false_eq_true, ↓reduceIte]
        omega
  · have bounded := tracked.bounded
    dsimp only
    split <;> omega
  · refine AssocList.forall_update ?_ ?_
    · intro entry member unlike
      obtain ⟨older, unnamed, released, unclosed⟩ := tracked.settled entry member
      refine ⟨older, fun idle => unnamed fun working => idle (covers _ unlike working), released, ?_⟩
      intro unejected
      rw [kept _ unlike]
      exact unclosed unejected
    · intro held member
      obtain rfl : held = record :=
        Option.some.inj ((AssocList.lookup_of_mem tracked.distinct member).symm.trans found)
      exact ⟨older, fun _ pending => by simp [retired] at pending, fun _ => retired, unclosed⟩
  · intro other fresh
    have unlike : other ≠ conn := by
      rintro rfl
      exact absurd older (not_lt.mpr fresh)
    rw [kept other unlike]
    exact tracked.unborn other fresh
  · intro other
    by_cases same : other = conn
    · exact same ▸ once
    · rw [kept other same]
      exact tracked.once other
  · rw [Transport.update, AssocList.keys_update]
    exact tracked.members

theorem releaseHelloWatch (tracked : Tracked config busy done transport)
    (covers : ∀ other, other ≠ conn → busy = some other → later = some other) :
    Tracked config later done (transport.releaseHelloWatch conn) := by
  cases found : transport.records.lookup conn with
  | none =>
      simp only [Transport.releaseHelloWatch, found]
      exact tracked.leaveOff covers fun record present => by simp [found] at present
  | some record =>
      rw [Transport.releaseHelloWatch_of_known found]
      have settled := tracked.settled_lookup found
      have retired := @retire _ _ later _ [] _ _ _ tracked covers found
        (fun record => { record with helloTimer := false, pendingHello := false }) rfl
      simp only [List.append_nil, closings_nil, implies_true] at retired
      exact retired settled.unclosed (tracked.once conn) trivial

/-- The state and the actions that a handler leaves. -/
theorem andThen {ran : Ran} {next : Transport → Ran} (middle : Option ConnId)
    (first : Tracked config middle (done ++ ran.2) ran.1)
    (second : Tracked config middle (done ++ ran.2) ran.1 →
      Tracked config later (done ++ ran.2 ++ (next ran.1).2) (next ran.1).1) :
    Tracked config later (done ++ (ran.andThen next).2) (ran.andThen next).1 := by
  unfold Ran.andThen
  rw [← List.append_assoc]
  exact second first

theorem close (tracked : Tracked config busy done transport)
    (covers : ∀ other, other ≠ conn → busy = some other → later = some other) (code : Nat) :
    Tracked config later (done ++ (transport.close conn code).2) (transport.close conn code).1 := by
  cases found : transport.records.lookup conn with
  | none =>
      rw [Transport.close_of_unknown found, List.append_nil]
      exact tracked.leaveOff covers fun record present => by simp [found] at present
  | some record =>
      have settled := tracked.settled_lookup found
      cases ejected : record.ejected with
      | true =>
        rw [Transport.close_of_ejected found ejected, List.append_nil]
        apply tracked.leaveOff covers
        intro held present pending
        obtain rfl : held = record := Option.some.inj (present.symm.trans found)
        simp [settled.released ejected] at pending
      | false =>
        have fresh : closings conn done = 0 := settled.unclosed ejected
        rw [Transport.close_of_unejected found ejected]
        refine tracked.retire covers found rfl (fun contra => by cases contra) ?_ ?_
        · rw [closings_append, closings_closeSocket, fresh]
          simp
        · intro other unlike
          rw [closings_closeSocket, if_neg (Ne.symm unlike)]

section Handlers

variable (sockets : ConnId → Frame → SocketState)

theorem send (tracked : Tracked config busy done transport) (conn : ConnId) (frame : Frame) :
    Tracked config busy (done ++ (transport.send conn sockets frame).2)
      (transport.send conn sockets frame).1 := by
  unfold Transport.send
  split
  · exact tracked.append fun _ => rfl
  · exact tracked.append fun _ => rfl
  all_goals
    split
    · exact tracked.close (fun _ _ working => working) _
    · split
      · exact tracked.append fun _ => rfl
      · exact tracked.append fun _ => rfl

theorem performAll (tracked : Tracked config busy done transport) (effects : List Effect) :
    Tracked config busy (done ++ (transport.performAll sockets effects).2)
      (transport.performAll sockets effects).1 := by
  induction effects generalizing done transport with
  | nil => exact tracked.append fun _ => rfl
  | cons effect rest ih =>
      refine andThen busy ?_ ih
      cases effect with
      | send target frame => exact tracked.send sockets target frame
      | close target code => exact tracked.close (fun _ _ working => working) code

theorem countInvalid (tracked : Tracked config busy done transport) (conn : ConnId) :
    Tracked config busy (done ++ (transport.countInvalid conn).2)
      (transport.countInvalid conn).1 := by
  unfold Transport.countInvalid
  split
  · exact tracked.append fun _ => rfl
  · rename_i record found
    dsimp only
    split
    · refine append ?_ fun _ => rfl
      exact tracked.update conn (fun _ => rfl) fun _ => rfl
    · refine close ?_ (fun _ _ working => working) _
      exact tracked.update conn (fun _ => rfl) fun _ => rfl

theorem judge (tracked : Tracked config busy done transport) (conn : ConnId)
    (result : HandleResult) :
    Tracked config busy (done ++ (transport.judge conn result).2)
      (transport.judge conn result).1 := by
  unfold Transport.judge
  split
  · refine append ?_ fun _ => rfl
    exact tracked.update conn (fun _ => rfl) fun _ => rfl
  · split
    · exact tracked.countInvalid conn
    · exact tracked.append fun _ => rfl

variable (fl : ℚ → ℚ)

theorem charge (tracked : Tracked config busy done transport) (conn : ConnId)
    (record : ConnectionRecord) (now : ℤ) :
    Tracked config busy (done ++ (transport.charge conn sockets config fl record now).2)
      (transport.charge conn sockets config fl record now).1 := by
  unfold Transport.charge
  refine andThen busy ?_ fun warned => ?_
  · split
    · refine send sockets ?_ conn _
      exact tracked.update conn (fun _ => rfl) fun _ => rfl
    · refine append ?_ fun _ => rfl
      exact tracked.update conn (fun _ => rfl) fun _ => rfl
  · cases (Server.charge fl config.rateLimit record.toRecord now).2.banned with
    | true => exact warned.close (fun _ _ working => working) _
    | false => exact warned.append fun _ => rfl

theorem handleMalformed (tracked : Tracked config busy done transport) (conn : ConnId) :
    Tracked config busy (done ++ (transport.handleMalformed conn sockets).2)
      (transport.handleMalformed conn sockets).1 := by
  unfold Transport.handleMalformed
  split
  · exact tracked.close (fun _ _ working => working) _
  · exact andThen busy (tracked.send sockets conn _) fun answered => answered.countInvalid conn

/-- The room after a message, while the handler is busy with its sender. -/
theorem message (tracked : Tracked config none done transport) {msg : JsValue} {draws : Draws}
    {handled : Handled} (found : transport.records.lookup conn = some record)
    (transition : Transition config.room transport.room (.message conn msg draws) handled) :
    Tracked config (some conn) done { transport with room := handled.1 } where
  roomValid := transition.valid tracked.roomValid
  distinct := tracked.distinct
  counted := tracked.counted
  bounded := tracked.bounded
  settled := by
    intro entry member
    obtain ⟨older, unnamed, released, unclosed⟩ := tracked.settled entry member
    refine ⟨older, fun idle pending => ?_, released, unclosed⟩
    rw [transition.conns_of_ne fun same => idle (congrArg some same.symm)]
    exact unnamed (by simp) pending
  unborn := by
    intro other fresh
    have older := (tracked.settled_lookup found).older
    have unlike : other ≠ conn := by
      rintro rfl
      exact absurd older (not_lt.mpr fresh)
    rw [transition.conns_of_ne unlike]
    exact tracked.unborn other fresh
  once := tracked.once
  members := by
    intro client member
    rcases transition.mem_clients member with earlier | own
    · exact tracked.members client earlier
    · rw [own]
      exact List.mem_map_of_mem (AssocList.mem_of_lookup found)

theorem callRoom (tracked : Tracked config none done transport) {msg : JsValue} {draws : Draws}
    (found : transport.records.lookup conn = some record) (thrown : Option Fault) :
    Tracked config (some conn)
      (done ++ (transport.callRoom sockets config (.message conn msg draws) thrown).2)
      (transport.callRoom sockets config (.message conn msg draws) thrown).1 := by
  have transition := attempt_transition config.room transport.room (.message conn msg draws) thrown
  unfold Transport.callRoom
  refine andThen (some conn) ?_ fun called => called.performAll sockets _
  exact (tracked.message found transition).append fun _ => rfl

theorem handleParsed (tracked : Tracked config none done transport) {msg : JsValue} {draws : Draws}
    (found : transport.records.lookup conn = some record) (thrown : Option Fault) :
    Tracked config none
      (done ++ (transport.handleParsed conn sockets config msg draws thrown).2)
      (transport.handleParsed conn sockets config msg draws thrown).1 := by
  have covers : ∀ other, other ≠ conn → some conn = some other → none = some other := by
    rintro other unlike ⟨⟩
    exact absurd rfl unlike
  have called := @callRoom _ _ _ _ _ sockets tracked msg draws found thrown
  unfold Transport.handleParsed
  split
  · exact andThen (some conn) called fun done => done.close covers _
  · apply andThen (some conn) called
    intro done
    refine judge ?_ conn _
    split
    · exact done.releaseHelloWatch covers
    · rename_i unregistered
      exact done.leaveOff covers fun _ _ _ => by simpa using unregistered

theorem onText (tracked : Tracked config none done transport) (conn : ConnId) (now : ℤ)
    (parsed : Option JsValue) (draws : Draws) (thrown : Option Fault) :
    Tracked config none
      (done ++ (transport.onText conn sockets config fl now parsed draws thrown).2)
      (transport.onText conn sockets config fl now parsed draws thrown).1 := by
  unfold Transport.onText
  split
  · exact tracked.append fun _ => rfl
  · rename_i record found
    split
    · exact tracked.append fun _ => rfl
    · apply andThen none (tracked.charge sockets fl conn record now)
      intro charged
      split
      · unfold Transport.serve
        split
        · exact charged.handleMalformed sockets conn
        · obtain ⟨held, present⟩ := Transport.known_of_keys found
            (Transport.Aside.charge sockets config fl transport conn record now).keys
          exact charged.handleParsed sockets present thrown
      · exact charged.append fun _ => rfl

end Handlers

end Tracked

end DjApp.Server
