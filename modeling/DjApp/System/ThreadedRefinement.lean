import DjApp.System.Convergence
import DjApp.System.ThreadedSteps

/-! Whatever the two threads of the clients do, there is a world of clients with one thread
that does the same. -/

set_option autoImplicit false

namespace DjApp.System

open Library
open Server (ConnId Frame Room RoomConfig IsMember framesTo)
open Client (AliveFlag Callback ClientApp ClientMessage ClientThreads MainComponent MessageEvent
  NetworkEvent Sessions StateDelta ThreadAction ThreadEvent dispatchedCallback isDeltaMessage
  messageServerSeq nextSeq pendingUnder sentMessages shownNumber)

/-!
## Frames as the network thread reads them
-/

section Frames

variable {config : RoomConfig} {frame : Frame} (valid : frame.Valid config)

theorem message_inbound (frame : Frame) : (inbound frame).message = some frame.toVar := by
  have object : ∃ fields, frame.toVar = .obj fields := by
    cases frame <;> exact ⟨_, toVar_object _⟩
  obtain ⟨fields, shape⟩ := object
  simp [Client.InboundFrame.message, inbound, shape, Client.wireLimit]

include valid

theorem nextSeq_eq (lastSeen : Option ℕ) :
    (shownNumber frame.toVar).or lastSeen = nextSeq lastSeen frame := by
  obtain ⟨callback, dispatched⟩ := Client.dispatchedCallback_toVar valid
  have threaded := ClientApp.dispatch_of_callback ⟨{}, lastSeen⟩ 0 dispatched
  rw [Client.dispatch_toVar _ 0 valid] at threaded
  exact (congrArg (fun done => done.1.lastSeenServerSeq) threaded).symm

/-- A frame that misses nothing is not answered with a request. -/
theorem unasked_of_unmissed {lastSeen : Option ℕ} (unmissed : missed lastSeen frame = false) :
    ¬(isDeltaMessage frame.toVar = true ∧
      ClientApp.needsSnapshot lastSeen (messageServerSeq frame.toVar) = true) := by
  intro asks
  obtain ⟨callback, dispatched⟩ := Client.dispatchedCallback_toVar valid
  have threaded := ClientApp.dispatch_of_callback ⟨{}, lastSeen⟩ 0 dispatched
  rw [Client.dispatch_toVar _ 0 valid, if_pos asks] at threaded
  have replies := congrArg Prod.snd threaded
  cases frame with
  | delta serverSeq source deck changes =>
      rw [missed] at unmissed
      simp [ClientApp.replies, unmissed] at replies
  | roleChanged id role =>
      simp only [ClientApp.replies] at replies
      split at replies
      · cases replies
      · cases replies
  | welcome | peerJoined | peerLeft | snapshot | error => cases replies

end Frames

/-!
## Callbacks and frames
-/

namespace Represents

variable {config : RoomConfig} {threaded : ThreadedWorld} {world : World}

/-- Nothing that is still on its way to a listening client is missed. -/
theorem unmissed (reachable : Reachable config world) (small : world.room.serverSeq < 2 ^ 31)
    {key : ℕ} {conn : ConnId} (linked : world.links key = some conn)
    (listening : (world.conns conn).listening = true) {before rest : List Frame} {frame : Frame}
    (down : (world.conns conn).down = before ++ frame :: rest) :
    missed (before.foldl nextSeq (world.apps key).lastSeenServerSeq) frame = false := by
  obtain ⟨sound, attended, _⟩ := reachable.coherent small
  have registered : world.room.conns conn ≠ none := by
    intro unknown
    rw [sound.silent conn unknown] at down
    cases before <;> cases down
  obtain ⟨registration, member⟩ := attended.present conn listening registered
  have follows := (sound.follows key conn registration linked member).upToDate.unmissed
  rw [down, unmissed_append] at follows
  exact follows.2.1

/-- The network thread takes a frame: a world of clients with one thread does nothing yet. -/
theorem receive (represents : Represents threaded world) (reachable : Reachable config world)
    (small : world.room.serverSeq < 2 ^ 31) {key : ℕ} {conn : ConnId} {frame : Frame}
    {rest : List Frame} (linked : threaded.links key = some conn)
    (first : (threaded.conns conn).down = frame :: rest) :
    Represents ((threaded.setConn conn { threaded.conns conn with down := rest }).turn key
      (.network (.message (inbound frame)))) world := by
  cases represents.phase key with
  | lost own flag frames dropped reason near => cases linked.symm.trans near
  | off near => cases linked.symm.trans near
  | linked own flag frames near far alive socket down pending seen =>
      obtain rfl : conn = own := Option.some.inj (linked.symm.trans near)
      rw [first] at down
      have valid : frame.Valid config := reachable.proper.frames conn frame (by simp [down])
      obtain ⟨callback, dispatched⟩ := Client.dispatchedCallback_toVar valid
      let threads := threaded.clients key
      let next := (threads.dispatch unmeasured frame.toVar 0).1
      have ran : threads.step unmeasured (.network (.message (inbound frame))) =
          threads.dispatch unmeasured frame.toVar 0 := by
        have running : threads.impl.socket = true := socket
        simp only [ClientThreads.step, running, ↓reduceIte, ClientThreads.networkStep]
        exact ClientThreads.handleMessage_of_some (message_inbound frame)
      have turns := Client.Turns.dispatch unmeasured threads frame.toVar 0
      rw [dispatched] at turns
      have lastSeen : next.impl.lastSeenServerSeq =
          nextSeq threads.impl.lastSeenServerSeq frame :=
        (Client.lastSeen_dispatch unmeasured threads frame.toVar 0).trans (nextSeq_eq valid _)
      have unanswered : ∀ connection : Connection,
          connection.listening = (threaded.conns conn).listening →
          connection.send (sentMessages (threads.dispatch unmeasured frame.toVar 0).2) =
            connection := by
        intro connection same
        cases listening : (world.conns conn).listening with
        | false =>
            rw [represents.listening conn] at listening
            exact Connection.send_deaf connection (same.trans listening) _
        | true =>
            have unmissed := unmissed reachable small far listening down
            rw [← seen] at unmissed
            rw [Client.sent_dispatch unmeasured threads (Nat.zero_le _) socket,
              if_neg (unasked_of_unmissed valid unmissed), Connection.send_nil]
      let taken := threaded.setConn conn { threaded.conns conn with down := rest }
      let after := taken.turn key (.network (.message (inbound frame)))
      have client : after.clients key = next := by
        rw [ThreadedWorld.clients_turn_self]
        exact congrArg Prod.fst ran
      have others : ∀ other, other ≠ key → after.clients other = threaded.clients other :=
        fun other unlike => ThreadedWorld.clients_turn_of_ne taken key _ unlike
      have conns : after.conns = taken.conns := by
        rw [ThreadedWorld.conns_turn_of_linked taken key _ linked]
        have own : taken.conns conn = { threaded.conns conn with down := rest } :=
          Function.update_self ..
        have sent : ((taken.clients key).step unmeasured
            (.network (.message (inbound frame)))).2 =
            (threads.dispatch unmeasured frame.toVar 0).2 := congrArg Prod.snd ran
        rw [sent, unanswered _ (by rw [own]), Function.update_eq_self]
      have elsewhere : ∀ other, other ≠ conn → after.conns other = threaded.conns other := by
        intro other unlike
        rw [conns]
        exact Function.update_of_ne unlike ..
      have here : after.conns conn = { threaded.conns conn with down := rest } := by
        rw [conns]
        exact Function.update_self ..
      refine ⟨represents.room, represents.nextConn, ?_, ?_, ?_, ?_, ?_⟩
      · intro other
        by_cases same : other = key
        · subst same
          rw [represents.components other]
          exact (turns.component.symm.trans (congrArg ClientThreads.component client.symm))
        · rw [represents.components other]
          exact congrArg ClientThreads.component (others other same).symm
      · intro other
        rw [represents.up other]
        by_cases same : other = conn
        · subst same
          exact (congrArg Connection.up here).symm
        · exact congrArg Connection.up (elsewhere other same).symm
      · intro other
        rw [represents.listening other]
        by_cases same : other = conn
        · subst same
          exact (congrArg Connection.listening here).symm
        · exact congrArg Connection.listening (elsewhere other same).symm
      · intro other
        by_cases same : other = key
        · subst same
          obtain ⟨done, sessions⟩ := represents.sessions other
          have stepped := sessions.step unmeasured (.network (.message (inbound frame)))
          rw [ran] at stepped
          refine ⟨done ++ (threads.dispatch unmeasured frame.toVar 0).2, ?_⟩
          change Sessions _ (after.clients other)
          rw [client]
          exact stepped
        · exact (others other same).symm ▸ represents.sessions other
      · intro other
        by_cases same : other = key
        · subst same
          refine .linked conn flag (frames ++ [frame]) linked far ?_ ?_ ?_ ?_ ?_
          · rw [client]
            exact turns.alive.trans alive
          · rw [client]
            exact turns.socket.trans socket
          · rw [here, down, List.append_assoc]
            rfl
          · have queue : next.queue = threads.queue ++ [(threads.impl.alive, callback)] :=
              turns.queue
            rw [client, queue, Client.pendingUnder_append, List.map_append, pending,
              List.map_append]
            simp [pendingUnder, threads, alive, dispatched]
          · rw [client, lastSeen, List.foldl_append, ← seen]
            rfl
        · refine (represents.phase other).congr rfl rfl ?_ ?_ ?_ ?_ rfl ?_
          · rw [others other same]
          · rw [others other same]
          · rw [others other same]
            exact fun _ _ => rfl
          · rw [others other same]
          · intro otherConn otherLinked
            have unlike : otherConn ≠ conn := by
              rintro rfl
              exact same (reachable.proper.alone other key _ otherLinked far)
            refine ⟨id, [], ?_, (List.append_nil _).symm⟩
            rw [elsewhere otherConn unlike, List.append_nil]

/-- The assumption on a step of the component, on the other side. -/
theorem settles (represents : Represents threaded world) {key : ℕ} {next : ClientThreads}
    {app : ClientApp} (settled : Settled (threaded.clients key) next)
    (component : app.component = next.component) (moved : Moved (world.apps key) app) :
    (world.apps key).Idle := by
  unfold Moved at moved
  rw [represents.components key, component] at moved
  have idle := settled moved
  unfold ClientApp.Idle at idle ⊢
  rwa [represents.components key]

/-- The message thread gets to a frame that a world of clients with one thread delivers now. -/
theorem deliver {read : ClientMessage → JsValue} (represents : Represents threaded world)
    (reachable : ReachableBy read config world)
    (small : world.room.serverSeq < 2 ^ 31) {key : ℕ} {conn : ConnId} {now : ℚ} {frame : Frame}
    {callback : Callback} {rest : List Frame} {event : ThreadEvent} {next : ClientThreads}
    {actions : List ThreadAction} (far : world.links key = some conn)
    (down : (world.conns conn).down = frame :: rest)
    (dispatched : dispatchedCallback frame.toVar = some callback)
    (settled : Settled (threaded.clients key) next)
    (ran : (threaded.clients key).step unmeasured event = (next, actions))
    (component : next.component = ((threaded.clients key).component.perform now callback).1)
    (sent : sentMessages actions = if (threaded.clients key).impl.socket then
      ((threaded.clients key).component.perform now callback).2 else [])
    (phase : ∀ after : World, after.links key = some conn → (after.conns conn).down = rest →
      (after.conns conn).listening = (world.conns conn).listening →
      (after.apps key).lastSeenServerSeq = nextSeq (world.apps key).lastSeenServerSeq frame →
      Phase (threaded.turn key event) after key)
    (exact : (threaded.turn key event).Exact read) :
    ∃ after, ReachableBy read config after ∧ Represents (threaded.turn key event) after := by
  have valid : frame.Valid config := reachable.meant.proper.frames conn frame (by simp [down])
  have handled := ClientApp.dispatch_of_callback (world.apps key) now dispatched
  rw [nextSeq_eq valid, represents.components key] at handled
  let app : ClientApp := ⟨((threaded.clients key).component.perform now callback).1,
    nextSeq (world.apps key).lastSeenServerSeq frame⟩
  let middle := world.setConn conn { world.conns conn with down := rest }
  have own : middle.conns conn = { world.conns conn with down := rest } := Function.update_self ..
  have elsewhere : ∀ other, other ≠ conn → middle.conns other = world.conns other :=
    fun other unlike => Function.update_of_ne unlike ..
  -- A request is not sent to a server that listens, nor heard by one that does not.
  have answers : middle.act key ((world.apps key).dispatch now frame.toVar) =
      middle.act key (app, ((threaded.clients key).component.perform now callback).2) := by
    rw [handled]
    cases listening : (world.conns conn).listening with
    | true =>
        have unmissed : missed (world.apps key).lastSeenServerSeq frame = false :=
          @unmissed config world reachable.meant small key conn far listening [] rest frame down
        rw [if_neg (unasked_of_unmissed valid unmissed), List.nil_append]
    | false =>
        have deaf : (middle.conns conn).listening = false := by
          rw [own]
          exact listening
        have linked : middle.links key = some conn := far
        simp only [World.act, linked, Connection.send_deaf _ deaf]
        rfl
  have client : (threaded.turn key event).clients key = next := by
    rw [ThreadedWorld.clients_turn_self, ran]
  suffices delivered : Represents (threaded.turn key event)
      (middle.act key ((world.apps key).dispatch now frame.toVar)) by
    exact ⟨_, reachable.step (.deliver world key conn now frame rest far down (by
      rw [handled]
      exact represents.settles settled component.symm)) reachable.meant.bounded
        (delivered.exact exact), delivered⟩
  rw [answers]
  refine ⟨represents.room, represents.nextConn, ?_, ?_, ?_, represents.sessions_turn key event, ?_⟩
  · intro other
    by_cases same : other = key
    · subst same
      rw [client, World.apps_act_self, component]
    · rw [ThreadedWorld.clients_turn_of_ne threaded key event same, World.apps_act_of_ne same]
      exact represents.components other
  · refine @up_turn threaded world represents key event middle app _ rfl ?_ ?_ ?_
    · intro other
      by_cases same : other = conn
      · subst same
        rw [own]
      · rw [elsewhere other same]
    · intro other
      by_cases same : other = conn
      · subst same
        rw [own]
      · rw [elsewhere other same]
    · rw [ran]
      exact sent
  · intro other
    rw [World.listening_act, ThreadedWorld.listening_turn, ← represents.listening other]
    by_cases same : other = conn
    · subst same
      rw [own]
    · rw [elsewhere other same]
  · intro other
    by_cases same : other = key
    · subst same
      refine phase _ far ?_ ?_ ?_
      · rw [World.down_act, own]
      · rw [World.listening_act, own]
      · rw [World.apps_act_self]
    · refine (represents.phase other).congr rfl rfl ?_ ?_ ?_ ?_ ?_ ?_
      · rw [ThreadedWorld.clients_turn_of_ne threaded key event same]
      · rw [ThreadedWorld.clients_turn_of_ne threaded key event same]
      · rw [ThreadedWorld.clients_turn_of_ne threaded key event same]
        exact fun _ _ => rfl
      · rw [ThreadedWorld.clients_turn_of_ne threaded key event same]
      · rw [World.apps_act_of_ne same]
        rfl
      · intro otherConn otherLinked
        have unlike : otherConn ≠ conn := by
          rintro rfl
          exact same (reachable.meant.proper.alone other key _ otherLinked far)
        refine ⟨?_, [], ?_, ?_⟩
        · rw [World.listening_act, elsewhere otherConn unlike]
          exact id
        · rw [ThreadedWorld.down_turn, List.append_nil]
        · rw [World.down_act, elsewhere otherConn unlike, List.append_nil]

/-- A client's step that sends nothing, perhaps with the loss of its connection. -/
theorem moves (represents : Represents threaded world) {key : ℕ} (event : ThreadEvent)
    {next : ClientThreads} {actions : List ThreadAction} (near far : Option ConnId)
    (app : ClientApp) (ran : (threaded.clients key).step unmeasured event = (next, actions))
    (unsent : sentMessages actions = []) (component : app.component = next.component)
    (phase : ∀ (threaded' : ThreadedWorld) (world' : World), threaded'.clients key = next →
      threaded'.links key = near → threaded'.conns = threaded.conns → world'.apps key = app →
      world'.links key = far → world'.conns = world.conns → Phase threaded' world' key) :
    Represents ((threaded.turn key event).setLink key near)
      { world with
        apps := Function.update world.apps key app
        links := Function.update world.links key far } := by
  have client : (threaded.turn key event).clients key = next := by
    rw [ThreadedWorld.clients_turn_self, ran]
  have conns : (threaded.turn key event).conns = threaded.conns := by
    cases linked : threaded.links key with
    | none => exact ThreadedWorld.conns_turn_of_unlinked threaded key event linked
    | some conn =>
        rw [ThreadedWorld.conns_turn_of_linked threaded key event linked, ran, unsent,
          Connection.send_nil, Function.update_eq_self]
  refine ⟨represents.room, represents.nextConn, ?_, ?_, ?_, represents.sessions_turn key event, ?_⟩
  · intro other
    change (Function.update world.apps key app other).component =
      ((threaded.turn key event).clients other).component
    by_cases same : other = key
    · subst same
      rw [Function.update_self, client, component]
    · rw [Function.update_of_ne same, ThreadedWorld.clients_turn_of_ne threaded key event same]
      exact represents.components other
  · intro conn
    exact (represents.up conn).trans (congrArg (fun all => (all conn).up) conns.symm)
  · intro conn
    exact (represents.listening conn).trans (congrArg (fun all => (all conn).listening) conns.symm)
  · intro other
    by_cases same : other = key
    · subst same
      exact phase _ _ client (Function.update_self ..) conns (Function.update_self ..)
        (Function.update_self ..) rfl
    · have unmoved : ((threaded.turn key event).setLink key near).clients other =
          threaded.clients other := ThreadedWorld.clients_turn_of_ne threaded key event same
      refine (represents.phase other).congr (Function.update_of_ne same ..)
        (Function.update_of_ne same ..) ?_ ?_ ?_ ?_ ?_ ?_
      · rw [unmoved]
      · rw [unmoved]
      · rw [unmoved]
        exact fun _ _ => rfl
      · rw [unmoved]
      · exact congrArg ClientApp.lastSeenServerSeq (Function.update_of_ne same ..)
      · intro conn _
        refine ⟨id, [], ?_, (List.append_nil _).symm⟩
        rw [List.append_nil]
        exact congrArg (fun all => (all conn).down) conns

/-- A client that is not connected is as if it had closed. -/
theorem closed_of_lost (reachable : Reachable config world) {key : ℕ}
    (lost : (world.apps key).component.connected = false) :
    (world.apps key).closed = world.apps key :=
  closed_of_offline (reachable.proper.apps key).coherent lost (reachable.offline.peers key lost)

/-- The close of a client's end, if it is not closed yet. -/
theorem left {read : ClientMessage → JsValue} (reachable : ReachableBy read config world) {key : ℕ}
    (settled : Moved (world.apps key) (world.apps key).closed → (world.apps key).Idle) :
    ReachableBy read config { world with
      apps := Function.update world.apps key (world.apps key).closed
      links := Function.update world.links key none } := by
  cases linked : world.links key with
  | some conn =>
      exact reachable.step (.leave world key conn linked settled) reachable.meant.bounded
        reachable.exact
  | none =>
      rw [closed_of_lost reachable.meant (reachable.meant.offline.unlinked key linked),
        Function.update_eq_self, ← linked, Function.update_eq_self]
      exact reachable

section Running

variable {read : ClientMessage → JsValue} (represents : Represents threaded world)
  (reachable : ReachableBy read config world) {key : ℕ} {event : ThreadEvent}
  {next : ClientThreads} {actions : List ThreadAction}
  (ran : (threaded.clients key).step unmeasured event = (next, actions))
  (settled : Settled (threaded.clients key) next)

include represents reachable ran settled

/-- The end of a connection. -/
theorem loses
    (closes : next.component = (threaded.clients key).component.handleConnectionChange false)
    (unsent : sentMessages actions = [])
    (pending : ∀ flag, next.impl.alive = some flag → ∀ callback ∈ pendingUnder flag next.queue,
      ∃ reason, callback = .connectionLost reason) :
    ∃ after, ReachableBy read config after ∧
      Represents ((threaded.turn key event).setLink key none) after := by
  have component : (world.apps key).closed.component = next.component := by
    rw [closes, ClientApp.closed, represents.components key]
  refine ⟨_, left reachable (represents.settles settled component), ?_⟩
  refine represents.moves event none none _ ran unsent component ?_
  intro threaded' world' same near' _ _ far' _
  exact .off near' far' (same ▸ pending)

/-- A callback of the message thread is the delivery of its frame, or the close of the
client's end. -/
theorem runs (small : world.room.serverSeq < 2 ^ 31) {own : AliveFlag} {now : ℚ}
    {callback : Callback} (alive : (threaded.clients key).impl.alive = some own)
    (pops : pendingUnder own (threaded.clients key).queue =
      callback :: pendingUnder own next.queue)
    (impl : next.impl = (threaded.clients key).impl)
    (component : next.component = ((threaded.clients key).component.perform now callback).1)
    (sent : sentMessages actions = if (threaded.clients key).impl.socket then
      ((threaded.clients key).component.perform now callback).2 else [])
    (exact : (threaded.turn key event).Exact read) :
    ∃ after, ReachableBy read config after ∧ Represents (threaded.turn key event) after := by
  have client : (threaded.turn key event).clients key = next := by
    rw [ThreadedWorld.clients_turn_self, ran]
  cases represents.phase key with
  | linked conn flag frames near far alive' socket down pending seen =>
      obtain rfl : own = flag := Option.some.inj (alive.symm.trans alive')
      rw [pops, List.map_cons] at pending
      cases frames with
      | nil => cases pending
      | cons frame frames =>
          obtain ⟨head, tail⟩ := List.cons.inj pending
          refine represents.deliver reachable small far down head.symm settled ran component sent ?_
            exact
          intro after links queue _ lastSeen
          refine .linked conn own frames near links ?_ ?_ ?_ ?_ ?_
          · rw [client, impl, alive]
          · rw [client, impl, socket]
          · rw [ThreadedWorld.down_turn]
            exact queue
          · rw [client]
            exact tail
          · rw [client, impl, lastSeen, seen, List.foldl_cons]
  | lost conn flag frames dropped reason near far deaf alive' down pending =>
      obtain rfl : own = flag := Option.some.inj (alive.symm.trans alive')
      rw [pops, List.map_cons] at pending
      cases frames with
      | nil =>
          obtain ⟨head, tail⟩ := List.cons.inj pending
          obtain rfl := Option.some.inj head
          rw [← threaded.setLink_turn_self key, near]
          refine represents.loses reachable ran settled component (sent.trans (ite_self _)) ?_
          intro flag current waiting member
          rw [impl, alive] at current
          obtain rfl := Option.some.inj current
          rw [List.map_eq_nil_iff.mp tail] at member
          cases member
      | cons frame frames =>
          obtain ⟨head, tail⟩ := List.cons.inj pending
          refine represents.deliver reachable small far down head.symm settled ran component sent ?_
            exact
          intro after links queue listening lastSeen
          refine .lost conn own frames dropped reason near links (listening.trans deaf) ?_ queue ?_
          · rw [client, impl, alive]
          · rw [client]
            exact tail
  | off near far pending =>
      obtain ⟨reason, rfl⟩ := pending own alive callback (pops ▸ List.mem_cons_self)
      rw [← threaded.setLink_turn_self key, near]
      refine represents.loses reachable ran settled component (sent.trans (ite_self _)) ?_
      intro flag current waiting member
      rw [impl, alive] at current
      obtain rfl := Option.some.inj current
      exact pending own alive waiting (pops ▸ List.mem_cons_of_mem _ member)

end Running

theorem callback {read : ClientMessage → JsValue} (represents : Represents threaded world)
    (reachable : ReachableBy read config world)
    (small : world.room.serverSeq < 2 ^ 31) (key : ℕ) (now : ℚ)
    (settled : Settled (threaded.clients key)
      ((threaded.turn key (.message (.callback now))).clients key))
    (exact : (threaded.turn key (.message (.callback now))).Exact read) :
    ∃ after, ReachableBy read config after ∧
      Represents (threaded.turn key (.message (.callback now))) after := by
  rw [ThreadedWorld.clients_turn_self] at settled
  obtain ⟨done, sessions⟩ := represents.sessions key
  cases free : (threaded.clients key).stopping with
  | some next =>
      refine ⟨world, reachable, represents.idles key _ (threaded.clients key) ?_ rfl rfl
        fun _ _ => rfl⟩
      simp only [ClientThreads.step, free]
  | none =>
      have unfolded : (threaded.clients key).step unmeasured (.message (.callback now)) =
          (threaded.clients key).runCallback unmeasured now := by
        simp only [ClientThreads.step, free, ClientThreads.messageStep]
      cases shape : (threaded.clients key).queue with
      | nil =>
          refine ⟨world, reachable, represents.idles key _ (threaded.clients key) ?_ rfl rfl
            fun _ _ => rfl⟩
          rw [unfolded]
          simp only [ClientThreads.runCallback, shape]
      | cons head rest =>
          obtain ⟨_ | own, callback⟩ := head
          · obtain ⟨flag, _, owner⟩ := sessions.owned _ (shape ▸ List.mem_cons_self)
            cases owner
          · have popped : ∀ flag, pendingUnder flag (threaded.clients key).queue =
                (if own = flag then [callback] else []) ++ pendingUnder flag rest := by
              intro flag
              rw [shape]
              by_cases same : own = flag
              · simp [pendingUnder, same]
              · simp [pendingUnder, same]
            cases live : (threaded.clients key).flags own with
            | false =>
                refine ⟨world, reachable, represents.idles key _
                  { threaded.clients key with queue := rest } ?_ rfl rfl ?_⟩
                · rw [unfolded]
                  simp only [ClientThreads.runCallback, shape, live, Bool.false_eq_true, ↓reduceIte]
                · intro flag alive
                  have lives := (sessions.live flag).mpr ⟨alive, free⟩
                  have unlike : own ≠ flag := by
                    rintro rfl
                    cases live.symm.trans lives
                  rw [popped, if_neg unlike, List.nil_append]
            | true =>
                obtain ⟨alive, _⟩ := (sessions.live own).mp live
                have ran : (threaded.clients key).step unmeasured (.message (.callback now)) =
                    ({ threaded.clients key with
                        queue := rest
                        component := ((threaded.clients key).component.perform now callback).1 },
                      .performed own callback ::
                        if (threaded.clients key).impl.socket then
                          ((threaded.clients key).component.perform now callback).2.map .sent
                        else []) := by
                  rw [unfolded]
                  simp only [ClientThreads.runCallback, shape, live, ↓reduceIte,
                    Client.ThreadsRan.andThen, ClientThreads.act, sendAll_unmeasured]
                  rfl
                rw [ran] at settled
                refine represents.runs reachable ran settled small alive ?_ rfl rfl ?_ exact
                · rw [popped, if_pos rfl, List.singleton_append]
                · cases (threaded.clients key).impl.socket with
                  | false => rfl
                  | true => exact sentMessages_map _

/-- The network thread learns of the close: the message thread does not know yet. -/
theorem lost (represents : Represents threaded world) {key : ℕ} {conn : ConnId}
    {event : NetworkEvent} (linked : threaded.links key = some conn)
    (closed : (threaded.conns conn).listening = false)
    (ends : event = .error ∨ ∃ code, event = .closed code) :
    Represents ((threaded.turn key (.network event)).setLink key none) world := by
  cases represents.phase key with
  | lost own flag frames dropped reason near => cases linked.symm.trans near
  | off near => cases linked.symm.trans near
  | linked own flag frames near far alive socket down pending seen =>
      obtain rfl : conn = own := Option.some.inj (linked.symm.trans near)
      obtain ⟨reason, ran⟩ : ∃ reason, (threaded.clients key).step unmeasured (.network event) =
          (threaded.clients key).marshal (.connectionLost reason) := by
        have running : (threaded.clients key).impl.socket = true := socket
        rcases ends with rfl | ⟨code, rfl⟩
        · exact ⟨_, by simp only [ClientThreads.step, running, ↓reduceIte]; rfl⟩
        · exact ⟨_, by simp only [ClientThreads.step, running, ↓reduceIte]; rfl⟩
      have moved := represents.moves (.network event) none (some conn) (world.apps key) ran rfl
        (represents.components key) ?_
      · rwa [Function.update_eq_self, ← far, Function.update_eq_self] at moved
      · intro threaded' world' same near' _ _ far' conns'
        refine .lost conn flag frames (threaded.conns conn).down reason near' far' ?_ ?_ ?_ ?_
        · rw [conns', represents.listening conn]
          exact closed
        · rw [same]
          exact alive
        · rw [conns']
          exact down
        · have queue : (threaded'.clients key).queue = (threaded.clients key).queue ++
              [((threaded.clients key).impl.alive, .connectionLost reason)] := by rw [same]
          rw [queue, Client.pendingUnder_append, List.map_append, pending]
          simp [pendingUnder, alive]

/-!
## Sessions that end and start
-/

section Stopping

variable {read : ClientMessage → JsValue} (represents : Represents threaded world)
  (reachable : ReachableBy read config world) {key : ℕ}

include represents reachable

theorem disconnected (waiting : (threaded.clients key).stopping = some .disconnect)
    (settled : Settled (threaded.clients key) ((threaded.turn key .socketStopped).clients key)) :
    ∃ after, ReachableBy read config after ∧
      Represents ((threaded.turn key .socketStopped).setLink key none) after := by
  rw [ThreadedWorld.clients_turn_self] at settled
  have ran : (threaded.clients key).step unmeasured .socketStopped =
      (threaded.clients key).stop.resume .disconnect := by
    simp only [ClientThreads.step, waiting]
  rw [ran] at settled
  refine represents.loses reachable ran settled rfl rfl ?_
  intro flag current
  cases current

/-- A connection attempt starts from a client that is not connected. -/
theorem attempted {name room : String}
    (waiting : (threaded.clients key).stopping = some (.connect name room)) :
    (threaded.clients key).component =
      (threaded.clients key).component.handleConnectionChange false := by
  obtain ⟨done, sessions⟩ := represents.sessions key
  have unconnected := sessions.attempting name room waiting
  rw [← represents.components key] at unconnected ⊢
  exact (congrArg ClientApp.component (closed_of_lost reachable.meant unconnected)).symm

theorem refused {name room reason : String}
    (waiting : (threaded.clients key).stopping = some (.connect name room))
    (invalid : Client.buildHello name room = .error reason) :
    ∃ after, ReachableBy read config after ∧
      Represents ((threaded.turn key .socketStopped).setLink key none) after := by
  obtain ⟨done, sessions⟩ := represents.sessions key
  have ran : (threaded.clients key).step unmeasured .socketStopped =
      (threaded.clients key).stop.allocate.marshal (.connectionLost reason) := by
    simp only [ClientThreads.step, waiting, ClientThreads.resume, ClientThreads.connect, invalid]
  refine represents.loses reachable ran ?_ (represents.attempted reachable waiting) rfl ?_
  · rintro (role | online)
    · exact absurd rfl role
    · exact absurd rfl online
  · intro flag current callback member
    obtain rfl : (threaded.clients key).allocated = flag := Option.some.inj current
    have queue : ((threaded.clients key).stop.allocate.marshal (.connectionLost reason)).1.queue =
        (threaded.clients key).queue ++
          [(some (threaded.clients key).allocated, .connectionLost reason)] := rfl
    have waits : callback ∈ pendingUnder (threaded.clients key).allocated
        ((threaded.clients key).stop.allocate.marshal (.connectionLost reason)).1.queue := member
    rw [queue, Client.pendingUnder_append, sessions.pending_unborn le_rfl] at waits
    simp only [pendingUnder, List.filterMap_cons, ↓reduceIte, List.filterMap_nil, List.nil_append,
      List.mem_singleton] at waits
    exact ⟨reason, waits⟩

/-- A new connection of a client that has none. -/
theorem connects {flag : AliveFlag} {hello : Option ClientMessage} {name room : String}
    (near : threaded.links key = none)
    (impl : (threaded.clients key).impl = { socket := true, alive := some flag, hello := hello })
    (pending : pendingUnder flag (threaded.clients key).queue = [])
    (built : Client.buildHello name room = .ok (ClientMessage.hello name room).toVar) :
    let opened : ThreadedWorld :=
      { threaded with
        links := Function.update threaded.links key (some threaded.nextConn)
        conns := Function.update threaded.conns threaded.nextConn
          { up := [.hello name room], listening := true }
        nextConn := threaded.nextConn + 1 }
    opened.Exact read → ∃ after, ReachableBy read config after ∧ Represents opened after := by
  intro opened exact
  have alive : (threaded.clients key).impl.alive = some flag := by rw [impl]
  have far : world.links key = none := by
    cases represents.phase key with
    | linked conn own frames linked => cases near.symm.trans linked
    | off near far => exact far
    | lost conn own frames dropped reason near far deaf alive' down waiting =>
        obtain rfl : flag = own := Option.some.inj (alive.symm.trans alive')
        rw [pending] at waiting
        cases frames <;> cases waiting
  suffices connected : Represents opened
      { world with
        apps := Function.update world.apps key (world.apps key).connect
        links := Function.update world.links key (some world.nextConn)
        conns := Function.update world.conns world.nextConn
          { up := [.hello name room], listening := true }
        nextConn := world.nextConn + 1 } by
    exact ⟨_, reachable.step (.connect world key name room far built) reachable.meant.bounded
      (connected.exact exact), connected⟩
  refine ⟨represents.room, congrArg (· + 1) represents.nextConn, ?_, ?_, ?_, represents.sessions,
    ?_⟩
  · intro other
    dsimp only [opened]
    by_cases same : other = key
    · subst same
      rw [Function.update_self]
      exact represents.components other
    · rw [Function.update_of_ne same]
      exact represents.components other
  · intro conn
    dsimp only [opened]
    rw [represents.nextConn]
    by_cases fresh : conn = threaded.nextConn
    · subst fresh
      rw [Function.update_self, Function.update_self]
    · rw [Function.update_of_ne fresh, Function.update_of_ne fresh]
      exact represents.up conn
  · intro conn
    dsimp only [opened]
    rw [represents.nextConn]
    by_cases fresh : conn = threaded.nextConn
    · subst fresh
      rw [Function.update_self, Function.update_self]
    · rw [Function.update_of_ne fresh, Function.update_of_ne fresh]
      exact represents.listening conn
  · intro other
    by_cases same : other = key
    · subst same
      refine .linked threaded.nextConn flag [] (Function.update_self ..) ?_ alive ?_ ?_ ?_ ?_
      · rw [← represents.nextConn]
        exact Function.update_self ..
      · rw [impl]
      · dsimp only [opened]
        rw [← represents.nextConn, Function.update_self, Function.update_self]
        rfl
      · rw [pending]
        rfl
      · dsimp only [opened]
        rw [impl, Function.update_self]
        rfl
    · refine (represents.phase other).congr (Function.update_of_ne same ..)
        (Function.update_of_ne same ..) rfl rfl (fun _ _ => rfl) rfl ?_ ?_
      · dsimp only [opened]
        rw [Function.update_of_ne same]
      · intro conn linked
        have unlike : conn ≠ world.nextConn :=
          Nat.ne_of_lt (reachable.meant.proper.opened other conn linked)
        dsimp only [opened]
        rw [← represents.nextConn, Function.update_of_ne unlike, Function.update_of_ne unlike]
        exact ⟨id, [], (List.append_nil _).symm, (List.append_nil _).symm⟩

theorem connected {name room : String}
    (waiting : (threaded.clients key).stopping = some (.connect name room))
    (built : Client.buildHello name room = .ok (ClientMessage.hello name room).toVar) :
    let after : ThreadedWorld :=
      { (threaded.turn key .socketStopped).setLink key (some threaded.nextConn) with
        conns := Function.update threaded.conns threaded.nextConn
          { up := [.hello name room], listening := true }
        nextConn := threaded.nextConn + 1 }
    after.Exact read → ∃ far, ReachableBy read config far ∧ Represents after far := by
  intro after exact
  obtain ⟨done, sessions⟩ := represents.sessions key
  let opened : ClientThreads := { (threaded.clients key).stop.allocate with impl :=
    { socket := true, alive := some (threaded.clients key).allocated,
      hello := some (.hello name room) } }
  have ran : (threaded.clients key).step unmeasured .socketStopped = (opened, []) := by
    simp only [ClientThreads.step, waiting, ClientThreads.resume, ClientThreads.connect, built]
    rfl
  have unborn := sessions.pending_unborn (le_refl (threaded.clients key).allocated)
  obtain ⟨middle, reached, closed⟩ := represents.loses reachable ran (by
    rintro (role | online)
    · exact absurd rfl role
    · exact absurd rfl online) (represents.attempted reachable waiting) rfl (by
    intro flag current callback member
    obtain rfl : (threaded.clients key).allocated = flag := Option.some.inj current
    rw [show opened.queue = (threaded.clients key).queue from rfl, unborn] at member
    cases member)
  have client : ((threaded.turn key .socketStopped).setLink key none).clients key = opened := by
    rw [show ((threaded.turn key .socketStopped).setLink key none).clients key =
      (threaded.turn key .socketStopped).clients key from rfl, ThreadedWorld.clients_turn_self, ran]
  have conns : (threaded.turn key .socketStopped).conns = threaded.conns := by
    cases linked : threaded.links key with
    | none => exact ThreadedWorld.conns_turn_of_unlinked threaded key _ linked
    | some conn =>
        rw [ThreadedWorld.conns_turn_of_linked threaded key _ linked, ran]
        exact (congrArg _ (Connection.send_nil _)).trans (Function.update_eq_self ..)
  have same : after =
      { (threaded.turn key .socketStopped).setLink key none with
        links := Function.update ((threaded.turn key .socketStopped).setLink key none).links key
          (some threaded.nextConn)
        conns := Function.update (threaded.turn key .socketStopped).conns threaded.nextConn
          { up := [.hello name room], listening := true }
        nextConn := threaded.nextConn + 1 } := by
    dsimp only [after, ThreadedWorld.setLink]
    rw [Function.update_idem, conns]
  rw [same] at exact ⊢
  exact @connects config _ middle read closed reached key (threaded.clients key).allocated
    (some (.hello name room)) name room (Function.update_self ..) (by rw [client])
    (by rw [client]; exact unborn) built exact

end Stopping

/-!
## Rooms and whole runs
-/

/-- A call of the server, which has taken a message off the connection or has lost it. -/
theorem call (represents : Represents threaded world) (call : Server.Call) {conn : ConnId}
    {near far : Connection} (up : far.up = near.up) (listening : far.listening = near.listening)
    (nearDown : near.down = (threaded.conns conn).down)
    (farDown : far.down = (world.conns conn).down)
    (deaf : (world.conns conn).listening = false → far.listening = false) :
    Represents ((threaded.setConn conn near).call config call)
      ((world.setConn conn far).call config call) := by
  have handled : threaded.room.step config call = world.room.step config call := by
    rw [represents.room]
  have here : ∀ other, ((threaded.setConn conn near).call config call).conns other =
      ((threaded.setConn conn near).conns other).hear other
        (world.room.step config call).2.effects := by
    intro other
    rw [← handled]
    rfl
  have there : ∀ other, ((world.setConn conn far).call config call).conns other =
      ((world.setConn conn far).conns other).hear other
        (world.room.step config call).2.effects := fun _ => rfl
  have ups : ∀ other, ((world.setConn conn far).conns other).up =
      ((threaded.setConn conn near).conns other).up := by
    intro other
    by_cases same : other = conn
    · subst same
      simpa [World.setConn, ThreadedWorld.setConn] using up
    · simpa [World.setConn, ThreadedWorld.setConn, same] using represents.up other
  have listens : ∀ other, ((world.setConn conn far).conns other).listening =
      ((threaded.setConn conn near).conns other).listening := by
    intro other
    by_cases same : other = conn
    · subst same
      simpa [World.setConn, ThreadedWorld.setConn] using listening
    · simpa [World.setConn, ThreadedWorld.setConn, same] using represents.listening other
  refine ⟨?_, represents.nextConn, represents.components, ?_, ?_, represents.sessions, ?_⟩
  · change (world.room.step config call).1 = (threaded.room.step config call).1
    rw [handled]
  · intro other
    rw [here, there, Connection.hear, Connection.hear]
    split
    · rfl
    · exact ups other
  · intro other
    rw [here, there, Connection.hear, Connection.hear]
    split
    · rfl
    · exact listens other
  · intro key
    refine (represents.phase key).congr rfl rfl rfl rfl (fun _ _ => rfl) rfl rfl ?_
    intro other linked
    refine ⟨?_, framesTo other (world.room.step config call).2.effects, ?_, ?_⟩
    · intro stays
      rw [there, Connection.hear]
      split
      · rfl
      · by_cases same : other = conn
        · subst same
          simpa [World.setConn] using deaf stays
        · simpa [World.setConn, same] using stays
    · rw [here, Connection.down_hear]
      by_cases same : other = conn
      · subst same
        simp [ThreadedWorld.setConn, nearDown]
      · simp [ThreadedWorld.setConn, same]
    · rw [there, Connection.down_hear]
      by_cases same : other = conn
      · subst same
        simp [World.setConn, farDown]
      · simp [World.setConn, same]

theorem initial : Represents .initial .initial where
  room := rfl
  nextConn := rfl
  components _ := rfl
  up _ := rfl
  listening _ := rfl
  sessions _ := ⟨[], .initial fun _ => ""⟩
  phase key := .off rfl rfl fun flag current => by cases current

/-- One step, and what a world of clients with one thread does for it. -/
theorem step {read : ClientMessage → JsValue} (represents : Represents threaded world)
    (reachable : ReachableBy read config world) (small : world.room.serverSeq < 2 ^ 31)
    {after : ThreadedWorld} (stepped : ThreadedStepBy read config threaded after)
    (bounded : after.room.clients.length ≤ 9) (exact : after.Exact read) :
    ∃ world', ReachableBy read config world' ∧ Represents after world' := by
  cases stepped with
  | receive key conn frame rest linked first =>
      exact ⟨world, reachable, represents.receive reachable.meant small linked first⟩
  | lost key conn event linked closed ends =>
      exact ⟨world, reachable, represents.lost linked closed ends⟩
  | callback key now settled => exact represents.callback reachable small key now settled exact
  | edit key now delta allowed named =>
      exact represents.edit key reachable now delta allowed named exact
  | tick key now => exact represents.tick key reachable now exact
  | claimButton key => exact represents.claimButton key reachable exact
  | connectButton key name room => exact represents.connectButton key reachable name room
  | disconnected key waiting settled => exact represents.disconnected reachable waiting settled
  | refused key name room reason waiting invalid => exact represents.refused reachable waiting invalid
  | connected key name room waiting built =>
      exact represents.connected reachable waiting built exact
  | drop conn listening =>
      have called := @Represents.call config _ _ represents (.disconnect conn) conn
        (threaded.conns conn).close (world.conns conn).close rfl rfl rfl rfl fun _ => rfl
      refine ⟨_, reachable.step (.drop world conn ((represents.listening conn).trans listening)) ?_
        (called.exact exact), called⟩
      rwa [called.room]
  | serve conn message rest draws listening first =>
      have called := @Represents.call config _ _ represents (.message conn (read message) draws)
        conn { threaded.conns conn with up := rest } { world.conns conn with up := rest } rfl
        (represents.listening conn) rfl rfl id
      refine ⟨_, reachable.step (.serve world conn message rest draws
        ((represents.listening conn).trans listening) ((represents.up conn).trans first)) ?_
          (called.exact exact), called⟩
      rwa [called.room]

end Represents

section Reached

variable {read : ClientMessage → JsValue} {config : RoomConfig} {threaded after : ThreadedWorld}

theorem ThreadedStepBy.serverSeq_le (stepped : ThreadedStepBy read config threaded after) :
    threaded.room.serverSeq ≤ after.room.serverSeq := by
  cases stepped with
  | drop conn listening => exact System.serverSeq_le (Server.step_transition config _ _)
  | serve conn message rest draws listening first =>
      exact System.serverSeq_le (Server.step_transition config _ _)
  | receive | lost | callback | edit | tick | claimButton | connectButton | disconnected
  | refused | connected => exact le_rfl

theorem ThreadedReachableBy.represented (reachable : ThreadedReachableBy read config threaded)
    (small : threaded.room.serverSeq < 2 ^ 31) :
    ∃ world, ReachableBy read config world ∧ Represents threaded world := by
  induction reachable with
  | initial => exact ⟨_, .initial, .initial⟩
  | step reachable stepped bounded exact ih =>
      have before := stepped.serverSeq_le.trans_lt small
      obtain ⟨world, reached, represents⟩ := ih before
      exact represents.step reached (represents.room ▸ before) stepped bounded exact

end Reached

end DjApp.System
