import DjApp.Server.TransportProperties

/-! One event of the transport: what it keeps of the records, and which call of the room
it makes if it makes one. -/

set_option autoImplicit false

namespace DjApp.Server

open Library

namespace Tracked

variable {config : TransportConfig} {done : List Action} {transport : Transport}

theorem onBinary (tracked : Tracked config none done transport) (conn : ConnId) :
    Tracked config none (done ++ (transport.onBinary conn).2) (transport.onBinary conn).1 := by
  unfold Transport.onBinary
  split
  · exact tracked.append fun _ => rfl
  · split
    · exact tracked.append fun _ => rfl
    · exact tracked.close (fun _ _ working => working) _

theorem onControl (tracked : Tracked config none done transport) (conn : ConnId)
    (sockets : ConnId → Frame → SocketState) (fl : ℚ → ℚ) (now : ℤ) (alive : Bool) :
    Tracked config none (done ++ (transport.onControl conn sockets config fl now alive).2)
      (transport.onControl conn sockets config fl now alive).1 := by
  unfold Transport.onControl
  split
  · exact tracked.append fun _ => rfl
  · split
    · exact tracked.append fun _ => rfl
    · refine charge sockets fl ?_ conn _ now
      exact tracked.update conn (fun _ => rfl) fun _ => rfl

theorem onHelloTimeout (tracked : Tracked config none done transport) (conn : ConnId) :
    Tracked config none (done ++ (transport.onHelloTimeout conn).2)
      (transport.onHelloTimeout conn).1 := by
  have fired : Tracked config none done
      (transport.update conn ({ · with helloTimer := false })) :=
    tracked.update conn (fun _ => rfl) fun _ => rfl
  unfold Transport.onHelloTimeout
  split
  · exact tracked.append fun _ => rfl
  · split
    · exact tracked.append fun _ => rfl
    · dsimp only
      split
      · exact fired.append fun _ => rfl
      · exact fired.close (fun _ _ working => working) _

theorem onTerminateTimeout (tracked : Tracked config none done transport) (conn : ConnId) :
    Tracked config none (done ++ (transport.onTerminateTimeout conn).2)
      (transport.onTerminateTimeout conn).1 := by
  unfold Transport.onTerminateTimeout
  split
  · exact tracked.append fun _ => rfl
  · apply tracked.append
    intro _
    split <;> rfl

theorem countP_filter_free {entries : List (ConnId × ConnectionRecord)} {conn : ConnId}
    (free : ∀ entry ∈ entries, entry.1 = conn → entry.2.pendingHello = false) :
    (entries.filter (·.1 != conn)).countP (·.2.pendingHello) =
      entries.countP (·.2.pendingHello) := by
  rw [List.countP_filter]
  apply List.countP_congr
  intro entry member
  by_cases own : entry.1 = conn
  · simp [free entry member own]
  · simp [own]

/-- The record goes together with the membership. -/
theorem depart (tracked : Tracked config none done transport) {conn : ConnId}
    (free : ∀ entry ∈ transport.records, entry.1 = conn → entry.2.pendingHello = false) :
    Tracked config none done
      { transport with
        records := transport.records.filter (·.1 != conn)
        room := (transport.room.step config.room (.disconnect conn)).1 } := by
  have transition := step_transition config.room transport.room (.disconnect conn)
  refine ⟨transition.valid tracked.roomValid, AssocList.nodup_keys_filter tracked.distinct _,
    ?_, tracked.bounded, ?_, ?_, tracked.once, ?_⟩
  · dsimp only
    rw [countP_filter_free free]
    exact tracked.counted
  · intro entry member
    obtain ⟨older, unnamed, released, unclosed⟩ :=
      tracked.settled entry (List.mem_of_mem_filter member)
    refine ⟨older, ?_, released, unclosed⟩
    dsimp only
    rw [transition.conns_of_disconnect]
    exact unnamed
  · dsimp only
    rw [transition.conns_of_disconnect]
    exact tracked.unborn
  · intro client member
    have other : client.2 ≠ conn := by
      rintro rfl
      exact not_mem_clients_disconnect tracked.roomValid client.2 (List.mem_map_of_mem member)
    rcases transition.mem_clients member with earlier | own
    · obtain ⟨entry, listed, same⟩ := List.mem_map.mp (tracked.members client earlier)
      refine List.mem_map.mpr ⟨entry, List.mem_filter.mpr ⟨listed, ?_⟩, same⟩
      simpa [same] using other
    · exact absurd own other

theorem onClose (tracked : Tracked config none done transport) (conn : ConnId)
    (sockets : ConnId → Frame → SocketState) :
    Tracked config none (done ++ (transport.onClose conn sockets config).2)
      (transport.onClose conn sockets config).1 := by
  unfold Transport.onClose
  cases found : transport.records.lookup conn with
  | none => exact tracked.append fun _ => rfl
  | some record =>
      have released : Tracked config none done (transport.releaseHelloWatch conn) :=
        tracked.releaseHelloWatch fun _ _ working => working
      have free : ∀ entry ∈ (transport.releaseHelloWatch conn).records, entry.1 = conn →
          entry.2.pendingHello = false := by
        rw [Transport.releaseHelloWatch_of_known found]
        exact @AssocList.forall_update _ _ _ _ conn
          ({ · with helloTimer := false, pendingHello := false }) _
          (fun entry : ConnId × ConnectionRecord => entry.1 = conn → entry.2.pendingHello = false)
          (fun entry _ other own => absurd own other) fun _ _ _ => rfl
      have departed := released.depart free
      refine andThen none ?_ fun called => called.performAll sockets _
      exact departed.append fun _ => rfl

theorem onConnection (tracked : Tracked config none done transport) (now : ℤ) :
    Tracked config none (done ++ (transport.onConnection config now).2)
      (transport.onConnection config now).1 := by
  unfold Transport.onConnection
  split
  · exact tracked.append fun _ => rfl
  · rename_i room
    obtain ⟨unregistered, unclosed⟩ := tracked.unborn transport.nextConn le_rfl
    have absent : transport.records.lookup transport.nextConn = none := by
      rw [AssocList.lookup_eq_none_iff_not_mem_keys]
      intro present
      obtain ⟨entry, member, same⟩ := List.mem_map.mp present
      exact absurd (tracked.settled entry member).older (by simp [same])
    refine append ?_ fun _ => rfl
    refine ⟨tracked.roomValid, AssocList.nodup_keys_concat tracked.distinct absent _, ?_, ?_, ?_,
      ?_, tracked.once, ?_⟩
    · have counted := tracked.counted
      simp only [List.countP_append, List.countP_cons, List.countP_nil, ↓reduceIte]
      omega
    · dsimp only
      omega
    · intro entry member
      dsimp only at member ⊢
      rcases List.mem_append.mp member with earlier | added
      · obtain ⟨older, unnamed, released, unclosed⟩ := tracked.settled entry earlier
        exact ⟨older.trans (Nat.lt_succ_self _), unnamed, released, unclosed⟩
      · obtain rfl := List.mem_singleton.mp added
        exact ⟨Nat.lt_succ_self _, fun _ _ => unregistered, Bool.noConfusion, fun _ => unclosed⟩
    · exact fun conn fresh => tracked.unborn conn ((Nat.le_succ _).trans fresh)
    · intro client member
      rw [List.map_append]
      exact List.mem_append_left _ (tracked.members client member)

theorem beat (tracked : Tracked config none done transport) (conn : ConnId) :
    Tracked config none (done ++ (transport.beat conn).2) (transport.beat conn).1 := by
  unfold Transport.beat
  split
  · exact tracked.append fun _ => rfl
  · split
    · refine append ?_ fun _ => rfl
      exact tracked.update conn (fun _ => rfl) fun _ => rfl
    · exact tracked.append fun _ => rfl

theorem bidFarewell (tracked : Tracked config none done transport) (conn : ConnId) :
    Tracked config none (done ++ (transport.bidFarewell conn).2)
      (transport.bidFarewell conn).1 :=
  (tracked.releaseHelloWatch fun _ _ working => working).close (fun _ _ working => working) _

theorem forEach {visit : Transport → ConnId → Ran}
    (kept : ∀ {done : List Action} {transport : Transport}, Tracked config none done transport →
      ∀ conn, Tracked config none (done ++ (visit transport conn).2) (visit transport conn).1)
    (tracked : Tracked config none done transport) (conns : List ConnId) :
    Tracked config none (done ++ (transport.forEach visit conns).2)
      (transport.forEach visit conns).1 := by
  induction conns generalizing done transport with
  | nil => exact tracked.append fun _ => rfl
  | cons conn rest ih => exact andThen none (kept tracked conn) ih

/-- Every event keeps the records as they should be. -/
theorem step (tracked : Tracked config none done transport) (fl : ℚ → ℚ)
    (input : TransportInput) :
    Tracked config none (done ++ (transport.step config fl input).2)
      (transport.step config fl input).1 := by
  unfold Transport.step
  cases input.event with
  | connection now => exact tracked.onConnection now
  | text conn now parsed draws thrown => exact tracked.onText _ fl conn now parsed draws thrown
  | binary conn => exact tracked.onBinary conn
  | ping conn now => exact tracked.onControl conn _ fl now false
  | pong conn now => exact tracked.onControl conn _ fl now true
  | error conn => exact tracked.append fun _ => rfl
  | throws conn => exact tracked.close (fun _ _ working => working) _
  | helloTimeout conn => exact tracked.onHelloTimeout conn
  | terminateTimeout conn => exact tracked.onTerminateTimeout conn
  | socketClose conn => exact tracked.onClose conn _
  | heartbeat => exact forEach beat tracked _
  | shutdown => exact forEach bidFarewell tracked _

/-- The actions of a whole run, in order. -/
theorem run (config : TransportConfig) (fl : ℚ → ℚ) (inputs : List TransportInput) :
    Tracked config none ((transportTrace config fl inputs).flatMap (·.output))
      (transportAfter config fl inputs) := by
  refine Machine.history_invariant (Transport.step config fl)
    (fun history transport => Tracked config none (history.flatMap (·.output)) transport)
    (Tracked.createServer config) ?_ inputs
  intro history transport input tracked
  rw [List.flatMap_append, List.flatMap_cons, List.flatMap_nil, List.append_nil]
  exact tracked.step fl input

end Tracked

namespace Transport

/-- A handler that calls the room, before it does anything else. -/
structure Called (transport : Transport) (call : Call) (handled : Handled) (ran : Ran) : Prop where
  shape : ∃ rest, ran.2 = .called call handled.2 :: rest ∧
    Aside { transport with room := handled.1 } (ran.1, rest)

namespace Called

variable {transport : Transport} {call : Call} {handled : Handled} {ran : Ran}

theorem andThen {next : Transport → Ran} (first : Called transport call handled ran)
    (second : Aside ran.1 (next ran.1)) : Called transport call handled (ran.andThen next) := by
  obtain ⟨rest, actions, aside⟩ := first.shape
  refine ⟨rest ++ (next ran.1).2, ?_, ?_⟩
  · rw [Ran.andThen, actions, List.cons_append]
  · exact @Aside.andThen _ (ran.1, rest) next aside second

theorem after {middle : Transport} (first : Aside transport (middle, []))
    (second : Called middle call handled ran) : Called transport call handled ran := by
  obtain ⟨rest, actions, aside⟩ := second.shape
  exact ⟨rest, actions, aside.silent, aside.room, aside.nextConn.trans first.nextConn,
    aside.keys.trans first.keys⟩

theorem callRoom (transport : Transport) (sockets : ConnId → Frame → SocketState)
    (config : TransportConfig) (call : Call) (thrown : Option Fault) :
    Called transport call (transport.room.attempt config.room call thrown)
      (transport.callRoom sockets config call thrown) := by
  let handled := transport.room.attempt config.room call thrown
  have first : Called transport call handled
      ({ transport with room := handled.1 }, [.called call handled.2]) :=
    ⟨[], rfl, Aside.stay rfl⟩
  unfold Transport.callRoom
  apply andThen first
  exact Aside.performAll sockets _ _

theorem handleParsed (transport : Transport) (conn : ConnId)
    (sockets : ConnId → Frame → SocketState) (config : TransportConfig) (msg : JsValue)
    (draws : Draws) (thrown : Option Fault) :
    Called transport (.message conn msg draws)
      (transport.room.attempt config.room (.message conn msg draws) thrown)
      (transport.handleParsed conn sockets config msg draws thrown) := by
  unfold Transport.handleParsed
  split
  · exact (callRoom transport sockets config _ _).andThen (Aside.close _ conn _)
  · apply (callRoom transport sockets config _ _).andThen
    refine Aside.after ?_ (Aside.judge _ conn _)
    split
    · exact Aside.releaseHelloWatch _ conn rfl
    · exact Aside.stay rfl

end Called

/-- What one event does: nothing to the room, or one call of it that comes first. -/
inductive Moved (config : TransportConfig) (transport : Transport) (event : TransportEvent)
    (ran : Ran) : Prop where
  | aside (aside : Aside transport ran) : Moved config transport event ran
  | connection (silent : calls ran.2 = []) (room : ran.1.room = transport.room)
      (nextConn : ran.1.nextConn = transport.nextConn + 1)
      (keys : ran.1.records.map (·.1) = transport.records.map (·.1) ++ [transport.nextConn]) :
      Moved config transport event ran
  | message (conn : ConnId) (msg : JsValue) (draws : Draws) (record : ConnectionRecord)
      (handled : Handled) (found : transport.records.lookup conn = some record)
      (unejected : record.ejected = false)
      (transition : Transition config.room transport.room (.message conn msg draws) handled)
      (called : Called transport (.message conn msg draws) handled ran) :
      Moved config transport event ran
  | disconnect (conn : ConnId) (record : ConnectionRecord) (closed : event = .socketClose conn)
      (found : transport.records.lookup conn = some record)
      (called : Called
        { transport with records := transport.records.filter (·.1 != conn) } (.disconnect conn)
        (transport.room.step config.room (.disconnect conn)) ran) :
      Moved config transport event ran

section Events

variable (config : TransportConfig) (transport : Transport) (conn : ConnId)
  (sockets : ConnId → Frame → SocketState) (fl : ℚ → ℚ)

theorem unpunished_of_served {rateLimit : RateLimit} {record : Record} {now : ℤ} {fl : ℚ → ℚ}
    (served : (Server.charge fl rateLimit record now).2.served = true) :
    (Server.charge fl rateLimit record now).2.warned = false ∧
      (Server.charge fl rateLimit record now).2.banned = false := by
  simp only [Server.charge, Bool.and_eq_true, Bool.not_eq_true'] at served ⊢
  exact ⟨by simp only [served.1, Bool.not_true, Bool.false_and], served.2⟩

/-- A frame that is served costs a token and nothing else. -/
theorem charge_of_served {record : ConnectionRecord} {now : ℤ}
    (served : (Server.charge fl config.rateLimit record.toRecord now).2.served = true) :
    ∃ change : ConnectionRecord → ConnectionRecord,
      (∀ record, (change record).ejected = record.ejected ∧
        (change record).consecutiveInvalid = record.consecutiveInvalid) ∧
      transport.charge conn sockets config fl record now =
        (transport.update conn change, []) := by
  obtain ⟨unwarned, unbanned⟩ := unpunished_of_served served
  unfold Transport.charge
  simp only [unwarned, unbanned, Bool.false_eq_true, ↓reduceIte]
  refine ⟨_, ?_, rfl⟩
  exact fun _ => ⟨rfl, rfl⟩

theorem moved_text (event : TransportEvent) (now : ℤ) (parsed : Option JsValue) (draws : Draws)
    (thrown : Option Fault) :
    Moved config transport event
      (transport.onText conn sockets config fl now parsed draws thrown) := by
  unfold onText
  split
  · exact .aside (Aside.stay rfl)
  · rename_i record found
    split
    · exact .aside (Aside.stay rfl)
    · rename_i unejected
      cases served : (Server.charge fl config.rateLimit record.toRecord now).2.served with
      | false =>
          refine .aside (Aside.andThen (Aside.charge sockets config fl transport conn record now) ?_)
          exact Aside.stay rfl
      | true =>
          obtain ⟨change, _, charged⟩ := charge_of_served config transport conn sockets fl served
          rw [charged]
          have kept : Aside transport (transport.update conn change, []) :=
            Aside.update transport conn change rfl
          cases parsed with
          | none => exact .aside (kept.andThen (Aside.handleMalformed sockets _ conn))
          | some msg =>
              refine .message conn msg draws record _ found (by simpa using unejected)
                (attempt_transition config.room transport.room _ thrown) ?_
              exact Called.after kept (Called.handleParsed _ conn sockets config msg draws thrown)

theorem called_onClose {record : ConnectionRecord}
    (found : transport.records.lookup conn = some record) :
    Called { transport with records := transport.records.filter (·.1 != conn) } (.disconnect conn)
      (transport.room.step config.room (.disconnect conn))
      (transport.onClose conn sockets config) := by
  have released : Aside transport (transport.releaseHelloWatch conn, []) :=
    Aside.releaseHelloWatch transport conn rfl
  have filtered : ∀ records : List (ConnId × ConnectionRecord),
      (records.filter (·.1 != conn)).map (·.1) = (records.map (·.1)).filter (· != conn) := by
    intro records
    rw [List.filter_map]
    rfl
  have removed : Aside { transport with records := transport.records.filter (·.1 != conn) }
      ({ transport.releaseHelloWatch conn with
          records := (transport.releaseHelloWatch conn).records.filter (·.1 != conn) }, []) := by
    refine ⟨rfl, released.room, released.nextConn, ?_⟩
    dsimp only
    rw [filtered, filtered, released.keys]
  have attempted : (transport.releaseHelloWatch conn).room.attempt config.room
      (.disconnect conn) none = transport.room.step config.room (.disconnect conn) := by
    rw [show (transport.releaseHelloWatch conn).room = transport.room from released.room]
    rfl
  simp only [onClose, found]
  rw [← attempted]
  exact Called.after removed (Called.callRoom _ sockets config _ none)

theorem moved_onClose :
    Moved config transport (.socketClose conn) (transport.onClose conn sockets config) := by
  cases found : transport.records.lookup conn with
  | none =>
      simp only [onClose, found]
      exact .aside (Aside.stay rfl)
  | some record =>
      exact .disconnect conn record rfl found (called_onClose config transport conn sockets found)

theorem aside_onControl (now : ℤ) (alive : Bool) :
    Aside transport (transport.onControl conn sockets config fl now alive) := by
  unfold onControl
  split
  · exact Aside.stay rfl
  · split
    · exact Aside.stay rfl
    · exact (Aside.update transport conn _ rfl).after (Aside.charge sockets config fl _ conn _ now)

theorem aside_onBinary : Aside transport (transport.onBinary conn) := by
  unfold onBinary
  split
  · exact Aside.stay rfl
  · split
    · exact Aside.stay rfl
    · exact Aside.close transport conn _

theorem aside_onHelloTimeout : Aside transport (transport.onHelloTimeout conn) := by
  unfold onHelloTimeout
  split
  · exact Aside.stay rfl
  · split
    · exact Aside.stay rfl
    · dsimp only
      split
      · exact Aside.update transport conn _ rfl
      · exact (Aside.update transport conn _ rfl).after (Aside.close _ conn _)

theorem aside_onTerminateTimeout : Aside transport (transport.onTerminateTimeout conn) := by
  unfold onTerminateTimeout
  split
  · exact Aside.stay rfl
  · apply Aside.stay
    split <;> rfl

theorem aside_beat : Aside transport (transport.beat conn) := by
  unfold beat
  split
  · exact Aside.stay rfl
  · split
    · exact Aside.update transport conn _ rfl
    · exact Aside.stay rfl

theorem aside_bidFarewell : Aside transport (transport.bidFarewell conn) :=
  (Aside.releaseHelloWatch transport conn rfl).after (Aside.close _ conn _)

theorem aside_forEach {visit : Transport → ConnId → Ran}
    (aside : ∀ transport conn, Aside transport (visit transport conn)) (transport : Transport)
    (conns : List ConnId) : Aside transport (transport.forEach visit conns) := by
  induction conns generalizing transport with
  | nil => exact Aside.stay rfl
  | cons conn rest ih => exact (aside transport conn).andThen (ih _)

theorem moved_onConnection (event : TransportEvent) (now : ℤ) :
    Moved config transport event (transport.onConnection config now) := by
  unfold onConnection
  split
  · exact .aside (Aside.stay rfl)
  · exact .connection rfl rfl rfl (List.map_append ..)

end Events

/-- Every event moves the transport in one of the four ways. -/
theorem moved (config : TransportConfig) (fl : ℚ → ℚ) (transport : Transport)
    (input : TransportInput) :
    Moved config transport input.event (transport.step config fl input) := by
  unfold step
  cases input.event with
  | connection now => exact moved_onConnection config transport _ now
  | text conn now parsed draws thrown =>
      exact moved_text config transport conn _ fl _ now parsed draws thrown
  | binary conn => exact .aside (aside_onBinary transport conn)
  | ping conn now => exact .aside (aside_onControl config transport conn _ fl now false)
  | pong conn now => exact .aside (aside_onControl config transport conn _ fl now true)
  | error conn => exact .aside (Aside.stay rfl)
  | throws conn => exact .aside (Aside.close transport conn _)
  | helloTimeout conn => exact .aside (aside_onHelloTimeout transport conn)
  | terminateTimeout conn => exact .aside (aside_onTerminateTimeout transport conn)
  | socketClose conn => exact moved_onClose config transport conn _
  | heartbeat => exact .aside (aside_forEach aside_beat transport _)
  | shutdown => exact .aside (aside_forEach aside_bidFarewell transport _)

end Transport

end DjApp.Server
