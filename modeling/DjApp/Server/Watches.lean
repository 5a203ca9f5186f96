import DjApp.Server.TransportRuns

/-! What the transport's handlers do to the watches of a socket: its timers, its slot and
the flag of the heartbeat. -/

set_option autoImplicit false

namespace DjApp.Server

open Library

/-!
## The watch of a socket
-/

/-- The part of a record that says what still watches its socket. -/
structure Watch where
  helloTimer : Bool
  terminateTimer : Bool
  pendingHello : Bool
  ejected : Bool
  isAlive : Bool

def ConnectionRecord.watch (record : ConnectionRecord) : Watch :=
  ⟨record.helloTimer, record.terminateTimer, record.pendingHello, record.ejected, record.isAlive⟩

namespace Watch

def release (watch : Watch) : Watch := { watch with helloTimer := false, pendingHello := false }

def eject (watch : Watch) : Watch :=
  if watch.ejected then watch
  else { watch.release with ejected := true, terminateTimer := true }

/-- The timers and the slot say whether the socket is ejected and whether it is registered. -/
structure Sound (watch : Watch) (registered : Bool) : Prop where
  pending : watch.pendingHello = (!watch.ejected && !registered)
  hello : watch.helloTimer = watch.pendingHello
  terminate : watch.terminateTimer = watch.ejected

theorem Sound.ejected {watch : Watch} {registered : Bool} (sound : watch.Sound registered)
    (later : Bool) : watch.eject.Sound later := by
  obtain ⟨pending, hello, terminate⟩ := sound
  unfold eject release
  split
  · rename_i ejected
    rw [ejected] at pending
    exact ⟨by rw [ejected]; exact pending, hello, terminate⟩
  · exact ⟨rfl, rfl, rfl⟩

/-- The timer may be gone before the socket is closed. -/
theorem Sound.timedOut {watch : Watch} {registered : Bool} (sound : watch.Sound registered)
    (later : Bool) : ({ watch with helloTimer := false } : Watch).eject.Sound later := by
  obtain ⟨pending, hello, terminate⟩ := sound
  unfold eject release
  split
  · rename_i ejected
    change watch.ejected = true at ejected
    rw [ejected] at pending
    exact ⟨by rw [ejected]; exact pending, pending.symm, terminate⟩
  · exact ⟨rfl, rfl, rfl⟩

theorem Sound.released {watch : Watch} {registered : Bool} (sound : watch.Sound registered) :
    watch.release.Sound true := by
  refine ⟨?_, rfl, sound.terminate⟩
  rw [Bool.not_true, Bool.and_false]
  rfl

end Watch

namespace Transport

def watch (transport : Transport) (conn : ConnId) : Option Watch :=
  (transport.records.lookup conn).map ConnectionRecord.watch

variable (transport : Transport) (conn : ConnId)

theorem watch_update {change : ConnectionRecord → ConnectionRecord} (turn : Watch → Watch)
    (same : ∀ record, (change record).watch = turn record.watch) :
    (transport.update conn change).watch =
      Function.update transport.watch conn ((transport.watch conn).map turn) := by
  funext other
  unfold watch update
  rw [AssocList.lookup_update]
  by_cases own : other = conn
  · subst own
    simp [Function.comp_def, same]
  · simp [own]

/-- A change of what the timers do not depend on. -/
theorem watch_update_of_eq {change : ConnectionRecord → ConnectionRecord}
    (same : ∀ record, (change record).watch = record.watch) :
    (transport.update conn change).watch = transport.watch := by
  rw [watch_update transport conn id same, Option.map_id_fun, id, Function.update_eq_self]

theorem watch_releaseHelloWatch :
    (transport.releaseHelloWatch conn).watch =
      Function.update transport.watch conn ((transport.watch conn).map Watch.release) := by
  cases found : transport.records.lookup conn with
  | none =>
      have absent : transport.watch conn = none := by rw [watch, found, Option.map_none]
      unfold releaseHelloWatch
      rw [found, absent, Option.map_none, ← absent, Function.update_eq_self]
  | some record =>
      rw [releaseHelloWatch_of_known found]
      exact @watch_update transport conn ({ · with helloTimer := false, pendingHello := false })
        Watch.release fun _ => rfl

theorem watch_close (code : Nat) :
    (transport.close conn code).1.watch =
        Function.update transport.watch conn ((transport.watch conn).map Watch.eject) ∧
      closings conn (transport.close conn code).2 =
        if (transport.watch conn).any fun watch => !watch.ejected then 1 else 0 := by
  cases found : transport.records.lookup conn with
  | none =>
      have absent : transport.watch conn = none := by rw [watch, found, Option.map_none]
      rw [close_of_unknown found, absent, Option.map_none]
      refine ⟨?_, rfl⟩
      rw [← absent, Function.update_eq_self]
  | some record =>
      have present : transport.watch conn = some record.watch := by rw [watch, found, Option.map_some]
      cases ejected : record.ejected with
      | true =>
          have stays : record.watch.eject = record.watch := if_pos ejected
          rw [close_of_ejected found ejected, present, Option.map_some, stays, ← present,
            Function.update_eq_self, present]
          refine ⟨rfl, ?_⟩
          simp [ConnectionRecord.watch, ejected]
      | false =>
          have ejects : record.watch.eject =
              { record.watch.release with ejected := true, terminateTimer := true } :=
            if_neg (by simp [ConnectionRecord.watch, ejected])
          rw [close_of_unejected found ejected, present, Option.map_some, ejects]
          constructor
          · refine (@watch_update transport conn ({ · with
              ejected := true, helloTimer := false, pendingHello := false, terminateTimer := true })
              ({ ·.release with ejected := true, terminateTimer := true }) fun _ => rfl).trans ?_
            rw [present, Option.map_some]
          · simp [closings_closeSocket, ConnectionRecord.watch, ejected]

end Transport

/-!
## Turns of a handler
-/

/-- What comes of a socket's watch while the handlers run, and how often it is closed. -/
inductive Turn (before : Option Watch) : Option Watch → ℕ → Prop where
  | stays : Turn before before 0
  | ejects (watch : Watch) (held : before = some watch) (unejected : watch.ejected = false) :
      Turn before (some watch.eject) 1

def Turned (transport : Transport) (ran : Ran) : Prop :=
  ∀ conn, Turn (transport.watch conn) (ran.1.watch conn) (closings conn ran.2)

theorem Watch.eject_ejected (watch : Watch) : watch.eject.ejected = true := by
  unfold eject
  split
  · assumption
  · rfl

theorem Turn.trans {before middle after : Option Watch} {first second : ℕ}
    (turn : Turn before middle first) (next : Turn middle after second) :
    Turn before after (first + second) := by
  cases turn with
  | stays => rwa [Nat.zero_add]
  | ejects watch held unejected =>
      cases next with
      | stays => exact .ejects watch held unejected
      | ejects again same unejected' =>
          obtain rfl := Option.some.inj same
          cases watch.eject_ejected.symm.trans unejected'

theorem Turn.of_none {after : Option Watch} {closed : ℕ} (turn : Turn none after closed) :
    after = none ∧ closed = 0 := by
  cases turn with
  | stays => exact ⟨rfl, rfl⟩
  | ejects watch held => cases held

namespace Turned

variable {transport : Transport} {actions : List Action} {ran : Ran}

theorem stay (unclosed : ∀ conn, closings conn actions = 0) : Turned transport (transport, actions) := by
  intro conn
  rw [unclosed]
  exact .stays

theorem andThen {next : Transport → Ran} (first : Turned transport ran)
    (second : Turned ran.1 (next ran.1)) : Turned transport (ran.andThen next) := by
  intro conn
  unfold Ran.andThen
  rw [closings_append]
  exact (first conn).trans (second conn)

theorem after {middle : Transport} (same : middle.watch = transport.watch)
    (second : Turned middle ran) : Turned transport ran := by
  unfold Turned at second ⊢
  rwa [same] at second

theorem update (transport : Transport) (conn : ConnId)
    {change : ConnectionRecord → ConnectionRecord}
    (same : ∀ record, (change record).watch = record.watch) :
    Turned transport (transport.update conn change, []) :=
  after (transport.watch_update_of_eq conn same) (stay fun _ => rfl)

theorem close (transport : Transport) (conn : ConnId) (code : Nat) :
    Turned transport (transport.close conn code) := by
  obtain ⟨watches, count⟩ := transport.watch_close conn code
  intro other
  rw [watches]
  by_cases own : other = conn
  · subst own
    rw [Function.update_self, count]
    cases held : transport.watch other with
    | none => exact .stays
    | some watch =>
        cases ejected : watch.ejected with
        | true =>
            have stays : watch.eject = watch := if_pos ejected
            simp only [Option.map_some, stays, Option.any_some, ejected]
            exact .stays
        | false =>
            simp only [Option.map_some, Option.any_some, ejected]
            exact .ejects watch rfl ejected
  · rw [Function.update_of_ne own]
    have unclosed : closings other (transport.close conn code).2 = 0 := by
      unfold Transport.close
      split
      · rfl
      · split
        · rfl
        · rw [closings_closeSocket, if_neg (Ne.symm own)]
    rw [unclosed]
    exact .stays

variable (sockets : ConnId → Frame → SocketState)

theorem send (transport : Transport) (conn : ConnId) (frame : Frame) :
    Turned transport (transport.send conn sockets frame) := by
  unfold Transport.send
  split
  · exact stay fun _ => rfl
  · exact stay fun _ => rfl
  all_goals
    split
    · exact close transport conn _
    · split <;> exact stay fun _ => rfl

theorem performAll (transport : Transport) (effects : List Effect) :
    Turned transport (transport.performAll sockets effects) := by
  induction effects generalizing transport with
  | nil => exact stay fun _ => rfl
  | cons effect rest ih =>
      refine andThen ?_ (ih _)
      cases effect with
      | send target frame => exact send sockets transport target frame
      | close target code => exact close transport target code

theorem callRoom (transport : Transport) (config : TransportConfig) (call : Call)
    (thrown : Option Fault) : Turned transport (transport.callRoom sockets config call thrown) := by
  unfold Transport.callRoom
  exact andThen (after rfl (stay fun _ => rfl)) (performAll sockets _ _)

theorem countInvalid (transport : Transport) (conn : ConnId) :
    Turned transport (transport.countInvalid conn) := by
  unfold Transport.countInvalid
  split
  · exact stay fun _ => rfl
  · dsimp only
    split
    · exact update transport conn fun _ => rfl
    · refine after ?_ (close _ conn _)
      exact transport.watch_update_of_eq conn fun _ => rfl

theorem judge (transport : Transport) (conn : ConnId) (result : HandleResult) :
    Turned transport (transport.judge conn result) := by
  unfold Transport.judge
  split
  · exact update transport conn fun _ => rfl
  · split
    · exact countInvalid transport conn
    · exact stay fun _ => rfl

theorem handleMalformed (transport : Transport) (conn : ConnId) :
    Turned transport (transport.handleMalformed conn sockets) := by
  unfold Transport.handleMalformed
  split
  · exact close transport conn _
  · exact (send sockets transport conn _).andThen (countInvalid _ conn)

theorem charge (config : TransportConfig) (fl : ℚ → ℚ) (transport : Transport) (conn : ConnId)
    (record : ConnectionRecord) (now : ℤ) :
    Turned transport (transport.charge conn sockets config fl record now) := by
  unfold Transport.charge
  refine andThen ?_ ?_
  · split
    · refine after ?_ (send sockets _ conn _)
      exact transport.watch_update_of_eq conn fun _ => rfl
    · exact update transport conn fun _ => rfl
  · cases (Server.charge fl config.rateLimit record.toRecord now).2.banned with
    | true => exact close _ conn _
    | false => exact stay fun _ => rfl

end Turned

/-!
## Watches carried over a registration
-/

/-- What comes of a socket's watch, whether the socket is registered meanwhile or not. -/
inductive Carried (registered later : Bool) : Option Watch → Option Watch → ℕ → Prop where
  | absent : Carried registered later none none 0
  | held (before after : Watch) (closed : ℕ) (sound : before.Sound registered → after.Sound later)
      (ejected : before.ejected.toNat + closed = after.ejected.toNat)
      (alive : after.isAlive = before.isAlive) :
      Carried registered later (some before) (some after) closed

namespace Carried

variable {registered middle later : Bool} {before between after : Option Watch}
  {first second : ℕ}

theorem of_turn (turn : Turn before after first) : Carried registered registered before after first := by
  cases turn with
  | stays =>
      cases before with
      | none => exact .absent
      | some watch => exact .held watch watch 0 id (Nat.add_zero _) rfl
  | ejects watch held unejected =>
      subst held
      refine .held watch watch.eject 1 (fun sound => sound.ejected _) ?_ ?_
      · rw [unejected, watch.eject_ejected]
        rfl
      · unfold Watch.eject
        split <;> rfl

theorem trans (turn : Carried registered middle before between first)
    (next : Carried middle later between after second) :
    Carried registered later before after (first + second) := by
  cases turn with
  | absent =>
      cases next with
      | absent => exact .absent
  | held before between first sound ejected alive =>
      cases next with
      | held between after second sound' ejected' alive' =>
          refine .held before after (first + second) (sound' ∘ sound) ?_ (alive'.trans alive)
          omega

theorem released (before : Option Watch) :
    Carried registered true before (before.map Watch.release) 0 := by
  cases before with
  | none => exact .absent
  | some watch => exact .held watch watch.release 0 (·.released) (Nat.add_zero _) rfl

/-- A socket that is closed may be registered or not. -/
theorem ejected (before : Option Watch) :
    Carried registered later before (before.map Watch.eject)
      (if before.any fun watch => !watch.ejected then 1 else 0) := by
  cases before with
  | none => exact .absent
  | some watch =>
      refine .held watch watch.eject _ (fun sound => sound.ejected _) ?_ ?_
      · rw [watch.eject_ejected, Option.any_some]
        cases watch.ejected <;> rfl
      · unfold Watch.eject
        split <;> rfl

end Carried

/-- Whether a connection has got an id in the room. -/
def Room.registered (room : Room) (conn : ConnId) : Bool := (room.conns conn).isSome

/-- What comes of all watches, where the room is changed alike. -/
def CarriedAll (transport : Transport) (ran : Ran) : Prop :=
  ∀ conn, Carried (transport.room.registered conn) (ran.1.room.registered conn)
    (transport.watch conn) (ran.1.watch conn) (closings conn ran.2)

namespace CarriedAll

variable {transport : Transport} {ran : Ran}

theorem of_turned (turned : Turned transport ran)
    (room : ∀ conn, ran.1.room.registered conn = transport.room.registered conn) :
    CarriedAll transport ran := by
  intro conn
  rw [room]
  exact .of_turn (turned conn)

theorem aside (turned : Turned transport ran) (aside : Transport.Aside transport ran) :
    CarriedAll transport ran :=
  of_turned turned fun _ => by rw [aside.room]

theorem andThen {next : Transport → Ran} (first : CarriedAll transport ran)
    (second : CarriedAll ran.1 (next ran.1)) : CarriedAll transport (ran.andThen next) := by
  intro conn
  unfold Ran.andThen
  rw [closings_append]
  exact (first conn).trans (second conn)

end CarriedAll

section Rooms

variable {config : RoomConfig} {room : Room} {call : Call} {handled : Handled}

/-- An id is kept. -/
theorem Transition.registered (transition : Transition config room call handled) {conn : ConnId}
    (registered : room.registered conn = true) : handled.1.registered conn = true := by
  cases transition with
  | idle | claim | release | delta | leave => exact registered
  | join caller msg draws id name unregistered =>
      by_cases same : conn = caller
      · subst same
        rw [Room.registered, unregistered] at registered
        cases registered
      · simpa [welcome, Room.register, Room.registered, Function.update_of_ne same] using registered

theorem Transition.registered_of_ne (transition : Transition config room call handled)
    {other : ConnId} (unlike : other ≠ call.conn) :
    handled.1.registered other = room.registered other := by
  rw [Room.registered, transition.conns_of_ne unlike, Room.registered]

theorem registered_disconnect (config : RoomConfig) (room : Room) (conn other : ConnId) :
    (room.step config (.disconnect conn)).1.registered other = room.registered other := by
  rw [Room.registered, (step_transition config room (.disconnect conn)).conns_of_disconnect,
    Room.registered]

end Rooms

section Messages

variable (sockets : ConnId → Frame → SocketState) (config : TransportConfig)
  (transport : Transport) (conn : ConnId)

theorem carried_close (code : Nat) (registered later : Bool) :
    Carried registered later (transport.watch conn) ((transport.close conn code).1.watch conn)
      (closings conn (transport.close conn code).2) := by
  obtain ⟨watches, count⟩ := transport.watch_close conn code
  rw [watches, Function.update_self, count]
  exact .ejected _

theorem carried_release (registered : Bool) :
    Carried registered true (transport.watch conn) ((transport.releaseHelloWatch conn).watch conn)
      0 := by
  rw [transport.watch_releaseHelloWatch, Function.update_self]
  exact .released _

theorem watch_release_of_ne {other : ConnId} (unlike : other ≠ conn) :
    (transport.releaseHelloWatch conn).watch other = transport.watch other := by
  rw [transport.watch_releaseHelloWatch, Function.update_of_ne unlike]

/-- A message is the one thing that registers a connection, and its slot is released then. -/
theorem CarriedAll.handleParsed (msg : JsValue) (draws : Draws) (thrown : Option Fault) :
    CarriedAll transport (transport.handleParsed conn sockets config msg draws thrown) := by
  have transition : Transition config.room transport.room (.message conn msg draws)
      (transport.room.attempt config.room (.message conn msg draws) thrown) :=
    attempt_transition config.room transport.room (.message conn msg draws) thrown
  obtain ⟨_, _, whole⟩ :=
    (Transport.Called.handleParsed transport conn sockets config msg draws thrown).shape
  have final : (transport.handleParsed conn sockets config msg draws thrown).1.room =
      (transport.room.attempt config.room (.message conn msg draws) thrown).1 := whole.room
  obtain ⟨_, _, aside⟩ := (Transport.Called.callRoom transport sockets config
    (.message conn msg draws) thrown).shape
  have room : (transport.callRoom sockets config (.message conn msg draws) thrown).1.room =
      (transport.room.attempt config.room (.message conn msg draws) thrown).1 := aside.room
  have turned := Turned.callRoom sockets transport config (.message conn msg draws) thrown
  intro other
  rw [final]
  unfold Transport.handleParsed
  dsimp only
  cases thrown with
  | some fault =>
      unfold Ran.andThen
      rw [closings_append]
      dsimp only
      refine (Carried.of_turn (turned other)).trans ?_
      by_cases own : other = conn
      · subst own
        exact carried_close _ other _ _ _
      · rw [transition.registered_of_ne own]
        exact .of_turn (Turned.close _ conn _ other)
  | none =>
      unfold Ran.andThen
      rw [closings_append]
      dsimp only
      refine (Carried.of_turn (turned other)).trans ?_
      cases joined : (transport.room.attempt config.room
          (.message conn msg draws) none).1.registered conn with
      | true =>
          have watched : ((transport.callRoom sockets config
              (.message conn msg draws) none).1.room.conns conn).isSome = true := by
            rw [room]
            exact joined
          rw [if_pos watched]
          have judged := Turned.judge ((transport.callRoom sockets config
            (.message conn msg draws) none).1.releaseHelloWatch conn) conn
            (transport.room.step config.room (.message conn msg draws)).2.result
          by_cases own : other = conn
          · subst own
            rw [joined, ← Nat.zero_add (closings other _)]
            exact (carried_release _ other _).trans (.of_turn (judged other))
          · rw [transition.registered_of_ne own]
            have turn := judged other
            rw [watch_release_of_ne _ conn own] at turn
            exact .of_turn turn
      | false =>
          have unwatched : ((transport.callRoom sockets config
              (.message conn msg draws) none).1.room.conns conn).isSome = false := by
            rw [room]
            exact joined
          rw [if_neg (by rw [unwatched]; exact Bool.false_ne_true)]
          have same : (transport.room.attempt config.room
              (.message conn msg draws) none).1.registered other =
                transport.room.registered other := by
            by_cases own : other = conn
            · subst own
              cases before : transport.room.registered other with
              | true => cases joined.symm.trans (transition.registered before)
              | false => exact joined
            · exact transition.registered_of_ne own
          rw [same]
          exact .of_turn (Turned.judge _ conn _ other)

theorem CarriedAll.stay {actions : List Action} (unclosed : ∀ conn, closings conn actions = 0) :
    CarriedAll transport (transport, actions) :=
  .of_turned (.stay unclosed) fun _ => rfl

theorem CarriedAll.close (code : Nat) : CarriedAll transport (transport.close conn code) :=
  .aside (.close transport conn code) (.close transport conn code)

theorem CarriedAll.onText (fl : ℚ → ℚ) (now : ℤ) (parsed : Option JsValue) (draws : Draws)
    (thrown : Option Fault) :
    CarriedAll transport (transport.onText conn sockets config fl now parsed draws thrown) := by
  unfold Transport.onText
  split
  · exact stay transport fun _ => rfl
  · rename_i record _
    split
    · exact stay transport fun _ => rfl
    · refine andThen (aside (.charge sockets config fl transport conn record now)
        (.charge sockets config fl transport conn record now)) ?_
      split
      · cases parsed with
        | none => exact aside (.handleMalformed sockets _ conn) (.handleMalformed sockets _ conn)
        | some msg => exact handleParsed sockets config _ conn msg draws thrown
      · exact stay _ fun _ => rfl

theorem CarriedAll.onBinary : CarriedAll transport (transport.onBinary conn) := by
  unfold Transport.onBinary
  split
  · exact stay transport fun _ => rfl
  · split
    · exact stay transport fun _ => rfl
    · exact close transport conn _

/-- A timer that fires is that of a socket which is not registered. -/
theorem CarriedAll.onHelloTimeout : CarriedAll transport (transport.onHelloTimeout conn) := by
  cases found : transport.records.lookup conn with
  | none =>
      simp only [Transport.onHelloTimeout, found]
      exact stay transport fun _ => rfl
  | some record =>
      simp only [Transport.onHelloTimeout, found]
      split
      · exact stay transport fun _ => rfl
      · rename_i armed
        have armed' : record.helloTimer = true := by simpa using armed
        have held : transport.watch conn = some record.watch := by
          rw [Transport.watch, found, Option.map_some]
        let fired := transport.update conn ({ · with helloTimer := false })
        have watches : fired.watch = Function.update transport.watch conn
            ((transport.watch conn).map fun watch => { watch with helloTimer := false }) :=
          @Transport.watch_update transport conn ({ · with helloTimer := false })
            ({ · with helloTimer := false }) fun _ => rfl
        have others : ∀ other, other ≠ conn → fired.watch other = transport.watch other := by
          intro other unlike
          rw [watches, Function.update_of_ne unlike]
        have own : fired.watch conn = some { record.watch with helloTimer := false } := by
          rw [watches, Function.update_self, held, Option.map_some]
        cases joined : (transport.room.conns conn).isSome with
        | true =>
            rw [if_pos rfl]
            intro other
            change Carried _ _ (transport.watch other) (fired.watch other) 0
            by_cases same : other = conn
            · subst same
              rw [own, held]
              refine .held _ _ 0 ?_ (Nat.add_zero _) rfl
              intro sound
              have unarmed := sound.hello.trans sound.pending
              rw [Room.registered, joined, Bool.not_true, Bool.and_false] at unarmed
              cases armed'.symm.trans unarmed
            · rw [others other same]
              exact .of_turn .stays
        | false =>
            rw [if_neg Bool.false_ne_true]
            change CarriedAll transport (fired.close conn CloseCode.badHandshake)
            intro other
            rw [show (fired.close conn CloseCode.badHandshake).1.room = transport.room from
              (Transport.Aside.close fired conn _).room]
            by_cases same : other = conn
            · subst same
              obtain ⟨after, count⟩ := fired.watch_close other CloseCode.badHandshake
              rw [after, Function.update_self, count, own, held]
              refine .held _ _ _ (fun sound => sound.timedOut _) ?_ ?_
              · rw [Watch.eject_ejected, Option.any_some]
                cases record.watch.ejected <;> rfl
              · unfold Watch.eject
                split <;> rfl
            · have turn := Turned.close fired conn CloseCode.badHandshake other
              rw [others other same] at turn
              exact .of_turn turn

theorem CarriedAll.onTerminateTimeout : CarriedAll transport (transport.onTerminateTimeout conn) := by
  unfold Transport.onTerminateTimeout
  split
  · exact stay transport fun _ => rfl
  · apply stay
    intro _
    split <;> rfl

theorem CarriedAll.bidFarewell : CarriedAll transport (transport.bidFarewell conn) := by
  have room : (transport.bidFarewell conn).1.room = transport.room :=
    (Transport.aside_bidFarewell transport conn).room
  intro other
  rw [room]
  unfold Transport.bidFarewell
  by_cases same : other = conn
  · subst same
    rw [← Nat.zero_add (closings other _)]
    exact (carried_release transport other (transport.room.registered other)).trans
      (carried_close _ other _ _ _)
  · have turn := Turned.close (transport.releaseHelloWatch conn) conn CloseCode.goingAway other
    rw [watch_release_of_ne transport conn same] at turn
    exact .of_turn turn

theorem CarriedAll.forEach {visit : Transport → ConnId → Ran}
    (carried : ∀ transport conn, CarriedAll transport (visit transport conn)) (conns : List ConnId) :
    CarriedAll transport (transport.forEach visit conns) := by
  induction conns generalizing transport with
  | nil => exact stay transport fun _ => rfl
  | cons conn rest ih => exact (carried transport conn).andThen (ih _)

theorem watch_beat :
    (transport.beat conn).1.watch = Function.update transport.watch conn
      ((transport.watch conn).map fun watch => { watch with isAlive := false }) := by
  cases found : transport.records.lookup conn with
  | none =>
      have absent : transport.watch conn = none := by rw [Transport.watch, found, Option.map_none]
      simp only [Transport.beat, found]
      rw [absent, Option.map_none, ← absent, Function.update_eq_self]
  | some record =>
      have held : transport.watch conn = some record.watch := by
        rw [Transport.watch, found, Option.map_some]
      simp only [Transport.beat, found]
      cases alive : record.isAlive with
      | true =>
          exact @Transport.watch_update transport conn ({ · with isAlive := false })
            ({ · with isAlive := false }) fun _ => rfl
      | false =>
          have same : ({ record.watch with isAlive := false } : Watch) = record.watch := by
            rw [← alive]
            rfl
          rw [held, Option.map_some, same, ← held, Function.update_eq_self]
          rfl

/-- A sweep of the heartbeat: each socket is told apart by the flag that it finds. -/
theorem forEach_beat {conns : List ConnId} (distinct : conns.Nodup) :
    (∀ conn, (transport.forEach Transport.beat conns).1.watch conn =
        if conn ∈ conns then (transport.watch conn).map fun watch => { watch with isAlive := false }
        else transport.watch conn) ∧
      (transport.forEach Transport.beat conns).2 = conns.flatMap fun conn =>
        match transport.watch conn with
        | none => []
        | some watch => if watch.isAlive then [.ping conn] else [.terminate conn] := by
  induction conns generalizing transport with
  | nil => exact ⟨fun _ => by simp [Transport.forEach], rfl⟩
  | cons own rest ih =>
      obtain ⟨absent, distinct⟩ := List.nodup_cons.mp distinct
      obtain ⟨watches, actions⟩ := ih (transport.beat own).1 distinct
      have beaten := watch_beat transport own
      constructor
      · intro other
        rw [Transport.forEach, Ran.andThen]
        dsimp only
        rw [watches other, beaten]
        by_cases same : other = own
        · subst same
          rw [if_neg absent, Function.update_self, if_pos List.mem_cons_self]
        · rw [Function.update_of_ne same]
          simp only [List.mem_cons, same, false_or]
      · rw [Transport.forEach, Ran.andThen, List.flatMap_cons]
        dsimp only
        rw [actions]
        congr 1
        · cases found : transport.records.lookup own with
          | none => simp only [Transport.beat, Transport.watch, found, Option.map_none]
          | some record =>
              simp only [Transport.beat, Transport.watch, found, Option.map_some]
              change _ = if record.isAlive then _ else _
              split <;> rfl
        · apply List.flatMap_congr
          intro other listed
          have unlike : other ≠ own := by
            rintro rfl
            exact absent listed
          rw [beaten, Function.update_of_ne unlike]

end Messages

end DjApp.Server
