import DjApp.Library.Since
import DjApp.Server.Watches

/-! The watches of the sockets over whole runs: no socket is left without one, a sweep of the
heartbeat ends exactly the sockets that have not answered the last one, and the shutdown ends
them all. -/

set_option autoImplicit false

namespace DjApp.Server

open Library

/-- The watch of a socket that has just been accepted. -/
def Watch.fresh : Watch := ⟨true, false, true, false, true⟩

/-- What an event does to the flag of the heartbeat. -/
def TransportEvent.touch (event : TransportEvent) (conn : ConnId) (watch : Watch) : Watch :=
  { watch with isAlive := match event with
    | .heartbeat => false
    | .pong target _ => (target == conn && !watch.ejected) || watch.isAlive
    | _ => watch.isAlive }

/-- What comes of the watch of one socket in an event. -/
inductive Passed (transport : Transport) (event : TransportEvent) (conn : ConnId) (later : Bool) :
    Option Watch → ℕ → Prop where
  | joins (now : ℤ) (connection : event = .connection now) (newest : conn = transport.nextConn)
      (absent : transport.watch conn = none)
      (unregistered : later = transport.room.registered conn) :
      Passed transport event conn later (some .fresh) 0
  | leaves (closes : event = .socketClose conn) : Passed transport event conn later none 0
  | stays (after : Option Watch) (closed : ℕ)
      (carried : Carried (transport.room.registered conn) later
        ((transport.watch conn).map (event.touch conn)) after closed) :
      Passed transport event conn later after closed

namespace Passed

variable {transport : Transport} {ran : Ran} {event : TransportEvent}

/-- An event that is neither of the heartbeat nor an answer to it. -/
theorem of_carried (carried : CarriedAll transport ran)
    (same : ∀ conn watch, event.touch conn watch = watch) (conn : ConnId) :
    Passed transport event conn (ran.1.room.registered conn) (ran.1.watch conn)
      (closings conn ran.2) := by
  refine .stays _ _ ?_
  rw [show event.touch conn = id from funext (same conn), Option.map_id_fun, id]
  exact carried conn

variable (transport) (config : TransportConfig) (sockets : ConnId → Frame → SocketState)
  (fl : ℚ → ℚ) (own conn : ConnId) (now : ℤ)

theorem onControl (alive : Bool)
    (touch : ∀ watch : Watch, watch.ejected = false →
      event.touch own watch = { watch with isAlive := alive || watch.isAlive })
    (others : ∀ other watch, other ≠ own ∨ watch.ejected = true → event.touch other watch = watch) :
    Passed transport event conn
      ((transport.onControl own sockets config fl now alive).1.room.registered conn)
      ((transport.onControl own sockets config fl now alive).1.watch conn)
      (closings conn (transport.onControl own sockets config fl now alive).2) := by
  have untouched : (∀ watch, transport.watch conn = some watch → conn ≠ own ∨ watch.ejected = true) →
      (transport.watch conn).map (event.touch conn) = transport.watch conn := by
    intro free
    cases held : transport.watch conn with
    | none => rfl
    | some watch => rw [Option.map_some, others conn watch (free watch held)]
  rw [(Transport.aside_onControl config transport own sockets fl now alive).room]
  refine .stays _ _ ?_
  cases found : transport.records.lookup own with
  | none =>
      simp only [Transport.onControl, found]
      rw [untouched]
      · exact .of_turn .stays
      · intro watch held
        refine .inl ?_
        rintro rfl
        simp [Transport.watch, found] at held
  | some record =>
      have held : transport.watch own = some record.watch := by
        rw [Transport.watch, found, Option.map_some]
      cases ejected : record.ejected with
      | true =>
          simp only [Transport.onControl, found, ejected, ↓reduceIte]
          rw [untouched]
          · exact .of_turn .stays
          · intro watch same
            by_cases mine : conn = own
            · subst mine
              obtain rfl := Option.some.inj (held.symm.trans same)
              exact .inr ejected
            · exact .inl mine
      | false =>
          simp only [Transport.onControl, found, ejected, Bool.false_eq_true, ↓reduceIte]
          let touched := transport.update own fun record =>
            { record with isAlive := alive || record.isAlive }
          have turn := Turned.charge sockets config fl touched own record now conn
          have watches : touched.watch = Function.update transport.watch own
              ((transport.watch own).map fun watch =>
                { watch with isAlive := alive || watch.isAlive }) :=
            @Transport.watch_update transport own _
              (fun watch => { watch with isAlive := alive || watch.isAlive }) fun _ => rfl
          have same : touched.watch conn = (transport.watch conn).map (event.touch conn) := by
            rw [watches]
            by_cases mine : conn = own
            · subst mine
              rw [Function.update_self, held, Option.map_some, Option.map_some, touch _ ejected]
            · rw [Function.update_of_ne mine, untouched fun _ _ => .inl mine]
          rw [← same]
          exact .of_turn turn

theorem onConnection :
    Passed transport (.connection now) conn
      ((transport.onConnection config now).1.room.registered conn)
      ((transport.onConnection config now).1.watch conn)
      (closings conn (transport.onConnection config now).2) := by
  unfold Transport.onConnection
  split
  · exact of_carried (.stay transport fun _ => rfl) (fun _ _ => rfl) conn
  · have unmoved : (transport.watch conn).map (TransportEvent.touch (.connection now) conn) =
        transport.watch conn := by
      cases transport.watch conn <;> rfl
    cases held : transport.watch conn with
    | some watch =>
        refine .stays _ _ ?_
        have kept : (transport.records.lookup conn).map ConnectionRecord.watch = some watch := held
        obtain ⟨record, found, rfl⟩ := Option.map_eq_some_iff.mp kept
        rw [unmoved, held]
        simp only [Transport.watch, List.lookup_append, found, Option.some_or, Option.map_some]
        exact .of_turn .stays
    | none =>
        have absent : transport.records.lookup conn = none := Option.map_eq_none_iff.mp held
        by_cases newest : conn = transport.nextConn
        · have joins : Passed transport (.connection now) conn (transport.room.registered conn)
              (some .fresh) 0 := .joins now rfl newest held rfl
          subst newest
          simp only [Transport.watch, List.lookup_append, absent, Option.none_or, List.lookup_cons,
            beq_self_eq_true, Option.map_some]
          exact joins
        · refine .stays _ _ ?_
          rw [unmoved, held]
          simp only [Transport.watch, List.lookup_append, absent, Option.none_or, List.lookup_cons,
            beq_false_of_ne newest, List.lookup_nil, Option.map_none]
          exact .absent

theorem onClose :
    Passed transport (.socketClose own) conn
      ((transport.onClose own sockets config).1.room.registered conn)
      ((transport.onClose own sockets config).1.watch conn)
      (closings conn (transport.onClose own sockets config).2) := by
  cases found : transport.records.lookup own with
  | none =>
      simp only [Transport.onClose, found]
      exact of_carried (.stay transport fun _ => rfl) (fun _ _ => rfl) conn
  | some record =>
      obtain ⟨_, _, aside⟩ := (Transport.called_onClose config transport own sockets found).shape
      have room : (transport.onClose own sockets config).1.room =
          (transport.room.step config.room (.disconnect own)).1 := aside.room
      rw [room, registered_disconnect]
      simp only [Transport.onClose, found]
      let released := transport.releaseHelloWatch own
      let removed : Transport :=
        { released with records := released.records.filter (·.1 != own) }
      have turn := Turned.callRoom sockets removed config (.disconnect own) none conn
      by_cases mine : conn = own
      · subst mine
        have absent : removed.watch conn = none := by
          have unlisted : removed.records.lookup conn = none := by
            rw [AssocList.lookup_eq_none_iff_not_mem_keys]
            intro listed
            obtain ⟨entry, member, same⟩ := List.mem_map.mp listed
            simp [removed, same] at member
          rw [Transport.watch, unlisted, Option.map_none]
        rw [absent] at turn
        obtain ⟨gone, unclosed⟩ := turn.of_none
        have leaves : Passed transport (.socketClose conn) conn (transport.room.registered conn)
            none 0 := .leaves rfl
        rw [← gone, ← unclosed] at leaves
        exact leaves
      · have kept : removed.watch conn = transport.watch conn := by
          rw [Transport.watch, show removed.records = released.records.filter (·.1 != own) from rfl,
            AssocList.lookup_filter_ne mine]
          exact watch_release_of_ne transport own mine
        rw [kept] at turn
        refine .stays _ _ ?_
        rw [show TransportEvent.touch (.socketClose own) conn = id from rfl, Option.map_id_fun, id]
        exact .of_turn turn

end Passed

/-- What one event does to the watch of each socket. -/
theorem Transport.passed (config : TransportConfig) (fl : ℚ → ℚ) (transport : Transport)
    (distinct : (transport.records.map (·.1)).Nodup) (input : TransportInput) (conn : ConnId) :
    Passed transport input.event conn
      ((transport.step config fl input).1.room.registered conn)
      ((transport.step config fl input).1.watch conn)
      (closings conn (transport.step config fl input).2) := by
  unfold Transport.step
  cases event : input.event with
  | connection now => exact .onConnection transport config conn now
  | text own now parsed draws thrown =>
      exact .of_carried (.onText _ config transport own fl now parsed draws thrown)
        (fun _ _ => rfl) conn
  | binary own => exact .of_carried (.onBinary transport own) (fun _ _ => rfl) conn
  | ping own now =>
      exact .onControl transport config _ fl own conn now false (fun _ _ => rfl) fun _ _ _ => rfl
  | pong own now =>
      refine .onControl transport config _ fl own conn now true ?_ ?_
      · intro watch unejected
        simp [TransportEvent.touch, unejected]
      · rintro other watch (unlike | ejected)
        · simp [TransportEvent.touch, beq_false_of_ne (Ne.symm unlike)]
        · have same : ({ watch with isAlive := watch.isAlive } : Watch) = watch := rfl
          simp only [TransportEvent.touch, ejected, Bool.not_true, Bool.and_false, Bool.false_or]
          rw [← ejected]
  | error own => exact .of_carried (.stay transport fun _ => rfl) (fun _ _ => rfl) conn
  | throws own => exact .of_carried (.close transport own _) (fun _ _ => rfl) conn
  | helloTimeout own => exact .of_carried (.onHelloTimeout transport own) (fun _ _ => rfl) conn
  | terminateTimeout own => exact .of_carried (.onTerminateTimeout transport own) (fun _ _ => rfl) conn
  | socketClose own => exact .onClose transport config _ own conn
  | heartbeat =>
      obtain ⟨watches, actions⟩ := forEach_beat transport distinct
      have unclosed : closings conn
          (transport.forEach Transport.beat (transport.records.map (·.1))).2 = 0 := by
        rw [actions, closings, List.countP_eq_zero]
        intro action listed
        obtain ⟨own, _, beats⟩ := List.mem_flatMap.mp listed
        split at beats
        · cases beats
        · split at beats
          all_goals
            obtain rfl := List.mem_singleton.mp beats
            exact Bool.false_ne_true
      have touched : (transport.forEach Transport.beat (transport.records.map (·.1))).1.watch conn =
          (transport.watch conn).map (TransportEvent.touch .heartbeat conn) := by
        rw [watches]
        split
        · rfl
        · rename_i unlisted
          have absent : transport.watch conn = none := by
            rw [Transport.watch, AssocList.lookup_eq_none_iff_not_mem_keys.mpr unlisted,
              Option.map_none]
          rw [absent, Option.map_none]
      refine .stays _ _ ?_
      rw [(Transport.aside_forEach Transport.aside_beat transport _).room, unclosed, touched]
      exact .of_turn .stays
  | shutdown =>
      exact .of_carried (.forEach transport (fun next own => .bidFarewell next own) _)
        (fun _ _ => rfl) conn

section Answers

/-- A sweep of the heartbeat that finds the socket. -/
def beats (conn : ConnId) (row : TransportEntry) : Prop :=
  row.input.event = .heartbeat ∧ row.before.records.lookup conn ≠ none

/-- A pong of the socket, as long as it is not ejected. -/
def answers (conn : ConnId) (row : TransportEntry) : Prop :=
  (∃ now, row.input.event = .pong conn now) ∧
    ∃ record, row.before.records.lookup conn = some record ∧ record.ejected = false

/-- The last sweep that found the socket has not been answered since. -/
def Unanswered (conn : ConnId) (rows : List TransportEntry) : Prop :=
  Since (beats conn) (answers conn) rows

end Answers

section Runs

variable {config : TransportConfig} {fl : ℚ → ℚ}

/-- What a run says of the watch of a socket that has not closed. -/
structure Accounted (history : List TransportEntry) (registered : Bool) (conn : ConnId)
    (watch : Watch) : Prop where
  sound : watch.Sound registered
  closed : closings conn (history.flatMap (·.output)) = watch.ejected.toNat
  alive : watch.isAlive = false ↔ Unanswered conn history

structure Watched (config : TransportConfig) (history : List TransportEntry)
    (transport : Transport) : Prop where
  tracked : Tracked config none (history.flatMap (·.output)) transport
  accounted : ∀ conn watch, transport.watch conn = some watch →
    Accounted history (transport.room.registered conn) conn watch
  unborn : ∀ conn, transport.nextConn ≤ conn → ¬ Unanswered conn history

theorem Tracked.watch_unborn {done : List Action} {transport : Transport}
    (tracked : Tracked config none done transport) {conn : ConnId}
    (fresh : transport.nextConn ≤ conn) : transport.watch conn = none := by
  cases found : transport.records.lookup conn with
  | none => rw [Transport.watch, found, Option.map_none]
  | some record => exact absurd (tracked.settled_lookup found).older (Nat.not_lt.mpr fresh)

theorem nextConn_le (transport : Transport) (input : TransportInput) :
    transport.nextConn ≤ (transport.step config fl input).1.nextConn := by
  cases Transport.moved config fl transport input with
  | aside aside => exact aside.nextConn.ge
  | connection silent room nextConn => exact nextConn ▸ Nat.le_succ _
  | message conn msg draws record handled found unejected transition called =>
      obtain ⟨_, _, aside⟩ := called.shape
      exact aside.nextConn.ge
  | disconnect conn record closed found called =>
      obtain ⟨_, _, aside⟩ := called.shape
      exact aside.nextConn.ge

/-- The flag after an event, by the event's own part. -/
theorem touch_isAlive {transport : Transport} {conn : ConnId} {watch : Watch}
    (held : transport.watch conn = some watch) {history : List TransportEntry}
    (alive : watch.isAlive = false ↔ Unanswered conn history) (input : TransportInput)
    (after : Transport)
    (output : List Action) :
    (input.event.touch conn watch).isAlive = false ↔
      Unanswered conn (history ++ [⟨transport, input, output, after⟩]) := by
  have known : transport.records.lookup conn ≠ none := by
    intro absent
    rw [Transport.watch, absent] at held
    cases held
  rw [Unanswered, since_concat, ← Unanswered, ← alive]
  unfold beats answers TransportEvent.touch
  cases input.event with
  | heartbeat => simp [known]
  | pong own now =>
      obtain ⟨record, found⟩ := Option.ne_none_iff_exists'.mp known
      have same : record.watch = watch := by
        rw [Transport.watch, found, Option.map_some] at held
        exact Option.some.inj held
      have ejected : watch.ejected = record.ejected := by
        rw [← same]
        rfl
      by_cases mine : own = conn
      · subst mine
        simp [found, ejected, and_comm]
      · simp [mine]
  | connection | text | binary | ping | error | throws | helloTimeout | terminateTimeout
  | socketClose | shutdown => simp

/-- The watch of a socket that stays. -/
theorem Accounted.stays {transport : Transport} {input : TransportInput} {conn : ConnId}
    {before after : Watch} {history : List TransportEntry}
    (accounted : Accounted history (transport.room.registered conn) conn before)
    (held : transport.watch conn = some before)
    (carried : Carried (transport.room.registered conn)
      ((transport.step config fl input).1.room.registered conn)
      (some (input.event.touch conn before)) (some after)
      (closings conn (transport.step config fl input).2)) :
    Accounted (history ++ [Machine.entry (Transport.step config fl) transport input])
      ((transport.step config fl input).1.room.registered conn) conn after := by
  have touched := touch_isAlive held accounted.alive input (transport.step config fl input).1
    (transport.step config fl input).2
  cases carried with
  | held _ _ _ sound ejected alive =>
      refine ⟨sound ?_, ?_, ?_⟩
      · exact ⟨accounted.sound.pending, accounted.sound.hello, accounted.sound.terminate⟩
      · rw [List.flatMap_append, closings_append, accounted.closed, ← ejected, List.flatMap_cons,
          List.flatMap_nil, List.append_nil]
        rfl
      · rw [alive]
        exact touched

theorem Watched.step {history : List TransportEntry} {transport : Transport}
    (watched : Watched config history transport) (input : TransportInput) :
    Watched config (history ++ [Machine.entry (Transport.step config fl) transport input])
      (transport.step config fl input).1 := by
  have tracked := watched.tracked.step fl input
  have actions : (history ++ [Machine.entry (Transport.step config fl) transport input]).flatMap
      (·.output) = history.flatMap (·.output) ++ (transport.step config fl input).2 := by
    rw [List.flatMap_append, List.flatMap_cons, List.flatMap_nil, List.append_nil]
    rfl
  rw [← actions] at tracked
  have silent : ∀ conn, transport.nextConn ≤ conn → ¬ Unanswered conn
      (history ++ [Machine.entry (Transport.step config fl) transport input]) := by
    intro conn fresh unanswered
    rcases (since_concat _ _).mp unanswered with ⟨_, known⟩ | ⟨earlier, _⟩
    · have absent := watched.tracked.watch_unborn fresh
      exact known (Option.map_eq_none_iff.mp absent)
    · exact watched.unborn conn fresh earlier
  refine ⟨tracked, ?_, fun conn fresh => silent conn ((nextConn_le transport input).trans fresh)⟩
  intro conn watch held
  have passed := transport.passed config fl watched.tracked.distinct input conn
  rw [held] at passed
  generalize count : closings conn (transport.step config fl input).2 = closed at passed
  cases passed with
  | joins now connection newest absent unregistered =>
      obtain ⟨unnamed, unclosed⟩ := watched.tracked.unborn conn newest.ge
      refine ⟨?_, ?_, ?_⟩
      · rw [unregistered, Room.registered, unnamed]
        exact ⟨rfl, rfl, rfl⟩
      · rw [actions, closings_append, unclosed, count]
        rfl
      · exact ⟨fun dead => Bool.noConfusion dead, fun late => absurd late (silent conn newest.ge)⟩
  | stays after closed carried =>
      rw [← count] at carried
      cases present : transport.watch conn with
      | none =>
          rw [present, Option.map_none] at carried
          cases carried
      | some before =>
          rw [present, Option.map_some] at carried
          exact (watched.accounted conn before present).stays present carried

theorem Watched.run (config : TransportConfig) (fl : ℚ → ℚ) (inputs : List TransportInput) :
    Watched config (transportTrace config fl inputs) (transportAfter config fl inputs) := by
  refine Machine.history_invariant (Transport.step config fl) (Watched config) ?_ ?_ inputs
  · refine ⟨Tracked.createServer config, ?_, fun conn _ => not_since_nil _ _⟩
    intro conn watch held
    cases held
  · exact fun history transport input watched => watched.step input

theorem Watched.of_lookup {history : List TransportEntry} {transport : Transport}
    (watched : Watched config history transport) {conn : ConnId} {record : ConnectionRecord}
    (found : transport.records.lookup conn = some record) :
    Accounted history (transport.room.registered conn) conn record.watch :=
  watched.accounted conn record.watch (by rw [Transport.watch, found, Option.map_some])

end Runs

section Timers

variable (config : TransportConfig) (fl : ℚ → ℚ) (inputs : List TransportInput)

/-- Whether a socket is open, with no id and not ejected yet. -/
def Transport.awaitsHello (transport : Transport) (conn : ConnId) : Bool :=
  (transport.records.lookup conn).any fun record =>
    !record.ejected && !transport.room.registered conn

theorem onHelloTimeout_of_sound {transport : Transport} {conn : ConnId} {record : ConnectionRecord}
    (found : transport.records.lookup conn = some record)
    (sound : record.watch.Sound (transport.room.registered conn)) :
    (transport.onHelloTimeout conn).2 =
      if transport.awaitsHello conn then [.closeSocket conn CloseCode.badHandshake] else [] := by
  have armed : record.helloTimer = transport.awaitsHello conn := by
    rw [Transport.awaitsHello, found, Option.any_some]
    exact sound.hello.trans sound.pending
  cases waits : transport.awaitsHello conn with
  | false =>
      rw [waits] at armed
      simp only [Transport.onHelloTimeout, found, armed, Bool.not_false, ↓reduceIte,
        Bool.false_eq_true]
  | true =>
      rw [waits] at armed
      rw [Transport.awaitsHello, found, Option.any_some] at waits
      obtain ⟨unejected, unregistered⟩ : record.ejected = false ∧
          transport.room.registered conn = false := by
        simpa using waits
      have unnamed : (transport.room.conns conn).isSome = false := unregistered
      have fired : (transport.update conn ({ · with helloTimer := false })).records.lookup conn =
          some { record with helloTimer := false } := by
        rw [Transport.update, AssocList.lookup_update, found]
        simp
      simp only [Transport.onHelloTimeout, found, armed, Bool.not_true, Bool.false_eq_true,
        ↓reduceIte, unnamed, Transport.close_of_unejected fired unejected]

/-- After any run a hello that comes too late closes its socket with 4000 exactly if it is
open, not registered and not ejected, and a socket is terminated at the end of its grace
exactly if it has been closed. -/
theorem timers_exact (sockets : ConnId → Frame → SocketState) (conn : ConnId) :
    ((transportAfter config fl inputs).step config fl ⟨.helloTimeout conn, sockets⟩).2 =
        (if (transportAfter config fl inputs).awaitsHello conn then
          [.closeSocket conn CloseCode.badHandshake] else []) ∧
      ((transportAfter config fl inputs).step config fl ⟨.terminateTimeout conn, sockets⟩).2 =
        (if conn ∈ (transportAfter config fl inputs).records.map (·.1) ∧
            closings conn ((transportTrace config fl inputs).flatMap (·.output)) = 1 then
          [.terminate conn] else []) := by
  have watched := Watched.run config fl inputs
  generalize transportAfter config fl inputs = transport at watched ⊢
  rw [show transport.step config fl ⟨.helloTimeout conn, sockets⟩ =
      transport.onHelloTimeout conn from rfl,
    show transport.step config fl ⟨.terminateTimeout conn, sockets⟩ =
      transport.onTerminateTimeout conn from rfl]
  cases found : transport.records.lookup conn with
  | none =>
      have unlisted := AssocList.lookup_eq_none_iff_not_mem_keys.mp found
      simp [Transport.onHelloTimeout, Transport.onTerminateTimeout, Transport.awaitsHello, found,
        unlisted]
  | some record =>
      obtain ⟨sound, closed, _⟩ := watched.of_lookup found
      refine ⟨onHelloTimeout_of_sound found sound, ?_⟩
      have listed : conn ∈ transport.records.map (·.1) :=
        List.mem_map_of_mem (AssocList.mem_of_lookup found)
      have armed : record.terminateTimer = record.ejected := sound.terminate
      rw [closed, show record.watch.ejected = record.ejected from rfl]
      simp only [Transport.onTerminateTimeout, found, armed, listed, true_and]
      cases record.ejected <;> simp

open Classical in
/-- After any run a sweep of the heartbeat terminates exactly the sockets that have not
answered the last sweep that found them, and pings all the others. -/
theorem heartbeat_exact (sockets : ConnId → Frame → SocketState) :
    ((transportAfter config fl inputs).step config fl ⟨.heartbeat, sockets⟩).2 =
      ((transportAfter config fl inputs).records.map (·.1)).map fun conn =>
        if Unanswered conn (transportTrace config fl inputs) then Action.terminate conn
        else .ping conn := by
  have watched := Watched.run config fl inputs
  generalize transportAfter config fl inputs = transport at watched ⊢
  obtain ⟨_, actions⟩ := forEach_beat transport watched.tracked.distinct
  refine actions.trans (Eq.trans ?_ List.map_eq_flatMap.symm)
  apply List.flatMap_congr
  intro conn listed
  cases found : transport.records.lookup conn with
  | none => exact absurd listed (AssocList.lookup_eq_none_iff_not_mem_keys.mp found)
  | some record =>
      have alive := (watched.of_lookup found).alive
      rw [Transport.watch, found, Option.map_some]
      dsimp only
      by_cases unanswered : Unanswered conn (transportTrace config fl inputs)
      · rw [if_pos unanswered, alive.mpr unanswered]
        rfl
      · rw [if_neg unanswered, if_pos]
        rw [← Bool.not_eq_false, alive]
        exact unanswered

end Timers

end DjApp.Server
