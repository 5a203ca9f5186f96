import DjApp.System.Offline
import DjApp.System.Stages
import DjApp.System.ThreadedWorld

/-! How a world of clients with two threads stands to one of clients with one: the frames in
a client's message queue are still on their way to it. -/

set_option autoImplicit false

namespace DjApp.System

open Library
open Server (ConnId Frame Room RoomConfig IsMember framesTo)
open Client (AliveFlag Callback ClientApp ClientMessage ClientThreads MainComponent MessageEvent
  NetworkEvent Sessions StateDelta ThreadAction ThreadEvent dispatchedCallback nextSeq pendingUnder
  sentMessages)

section Sending

variable (threads : ClientThreads)

theorem sentMessages_map (messages : List ClientMessage) :
    sentMessages (messages.map .sent) = messages := by
  induction messages with
  | nil => rfl
  | cons message rest ih => exact congrArg (message :: ·) ih

/-- Where nothing is too large, sending changes nothing in the client. -/
theorem sendAll_unmeasured (messages : List ClientMessage) :
    threads.sendAll unmeasured messages =
      (threads, if threads.impl.socket then messages.map .sent else []) := by
  induction messages with
  | nil => simp [ClientThreads.sendAll]
  | cons message rest ih =>
      have small : threads.sendMessage unmeasured message =
          (threads, if threads.impl.socket then [.sent message] else []) := rfl
      rw [ClientThreads.sendAll, small, Client.ThreadsRan.andThen, ih]
      cases threads.impl.socket <;> rfl

end Sending

namespace Connection

variable (connection : Connection)

@[simp] theorem send_nil : connection.send [] = connection := by
  unfold send
  split <;> simp

theorem send_deaf (deaf : connection.listening = false) (messages : List ClientMessage) :
    connection.send messages = connection := by
  simp [send, deaf]

end Connection

theorem World.act_self_nil (world : World) (key : ℕ) :
    world.act key (world.apps key, []) = world := by
  unfold World.act
  cases world.links key <;> simp

namespace ThreadedWorld

variable (world : ThreadedWorld) (key : ℕ) (event : ThreadEvent)

@[simp] theorem clients_turn_self : (world.turn key event).clients key =
    ((world.clients key).step unmeasured event).1 := by
  simp [turn]

theorem clients_turn_of_ne {other : ℕ} (unlike : other ≠ key) :
    (world.turn key event).clients other = world.clients other := by
  simp [turn, unlike]

theorem conns_turn_of_linked {conn : ConnId} (linked : world.links key = some conn) :
    (world.turn key event).conns = Function.update world.conns conn ((world.conns conn).send
      (sentMessages ((world.clients key).step unmeasured event).2)) := by
  simp [turn, linked]

theorem conns_turn_of_unlinked (unlinked : world.links key = none) :
    (world.turn key event).conns = world.conns := by
  simp [turn, unlinked]

/-- A client's step leaves its link alone. -/
theorem setLink_turn_self : (world.turn key event).setLink key (world.links key) =
    world.turn key event := by
  change { world.turn key event with
    links := Function.update world.links key (world.links key) } = _
  rw [Function.update_eq_self]
  rfl

@[simp] theorem down_turn (conn : ConnId) :
    ((world.turn key event).conns conn).down = (world.conns conn).down := by
  cases linked : world.links key with
  | none => rw [conns_turn_of_unlinked world key event linked]
  | some own =>
      rw [conns_turn_of_linked world key event linked]
      by_cases same : conn = own
      · subst same
        rw [Function.update_self, Connection.down_send]
      · rw [Function.update_of_ne same]

@[simp] theorem listening_turn (conn : ConnId) :
    ((world.turn key event).conns conn).listening = (world.conns conn).listening := by
  cases linked : world.links key with
  | none => rw [conns_turn_of_unlinked world key event linked]
  | some own =>
      rw [conns_turn_of_linked world key event linked]
      by_cases same : conn = own
      · subst same
        rw [Function.update_self, Connection.listening_send]
      · rw [Function.update_of_ne same]

end ThreadedWorld

/-- Where the callbacks of a client are: behind its open socket, at the end of a closed one,
or through. -/
inductive Phase (threaded : ThreadedWorld) (world : World) (key : ℕ) : Prop where
  | linked (conn : ConnId) (flag : AliveFlag) (frames : List Frame)
      (near : threaded.links key = some conn) (far : world.links key = some conn)
      (alive : (threaded.clients key).impl.alive = some flag)
      (socket : (threaded.clients key).impl.socket = true)
      (down : (world.conns conn).down = frames ++ (threaded.conns conn).down)
      (pending : (pendingUnder flag (threaded.clients key).queue).map some =
        frames.map fun frame => dispatchedCallback frame.toVar)
      (seen : (threaded.clients key).impl.lastSeenServerSeq =
        frames.foldl nextSeq (world.apps key).lastSeenServerSeq) : Phase threaded world key
  | lost (conn : ConnId) (flag : AliveFlag) (frames dropped : List Frame) (reason : String)
      (near : threaded.links key = none) (far : world.links key = some conn)
      (deaf : (world.conns conn).listening = false)
      (alive : (threaded.clients key).impl.alive = some flag)
      (down : (world.conns conn).down = frames ++ dropped)
      (pending : (pendingUnder flag (threaded.clients key).queue).map some =
        (frames.map fun frame => dispatchedCallback frame.toVar) ++
          [some (.connectionLost reason)]) : Phase threaded world key
  | off (near : threaded.links key = none) (far : world.links key = none)
      (pending : ∀ flag, (threaded.clients key).impl.alive = some flag →
        ∀ callback ∈ pendingUnder flag (threaded.clients key).queue,
          ∃ reason, callback = .connectionLost reason) : Phase threaded world key

/-- A world of clients with one thread that has done what this one has done. -/
structure Represents (threaded : ThreadedWorld) (world : World) : Prop where
  room : world.room = threaded.room
  nextConn : world.nextConn = threaded.nextConn
  components : ∀ key, (world.apps key).component = (threaded.clients key).component
  up : ∀ conn, (world.conns conn).up = (threaded.conns conn).up
  listening : ∀ conn, (world.conns conn).listening = (threaded.conns conn).listening
  sessions : ∀ key, ∃ done, Sessions done (threaded.clients key)
  phase : ∀ key, Phase threaded world key

namespace Phase

variable {threaded threaded' : ThreadedWorld} {world world' : World} {key : ℕ}

/-- What a phase depends on. -/
theorem congr (phase : Phase threaded world key) (near : threaded'.links key = threaded.links key)
    (far : world'.links key = world.links key)
    (alive : (threaded'.clients key).impl.alive = (threaded.clients key).impl.alive)
    (socket : (threaded'.clients key).impl.socket = (threaded.clients key).impl.socket)
    (queue : ∀ flag, (threaded.clients key).impl.alive = some flag →
      pendingUnder flag (threaded'.clients key).queue =
        pendingUnder flag (threaded.clients key).queue)
    (lastSeen : (threaded'.clients key).impl.lastSeenServerSeq =
      (threaded.clients key).impl.lastSeenServerSeq)
    (seen : (world'.apps key).lastSeenServerSeq = (world.apps key).lastSeenServerSeq)
    (conns : ∀ conn, world.links key = some conn →
      ((world.conns conn).listening = false → (world'.conns conn).listening = false) ∧ ∃ more,
        (threaded'.conns conn).down = (threaded.conns conn).down ++ more ∧
          (world'.conns conn).down = (world.conns conn).down ++ more) :
    Phase threaded' world' key := by
  cases phase with
  | linked conn flag frames near' far' alive' socket' down pending seen' =>
      obtain ⟨_, more, nearDown, farDown⟩ := conns conn far'
      refine .linked conn flag frames (near.trans near') (far.trans far') (alive.trans alive')
        (socket.trans socket') ?_ ?_ (by rw [lastSeen, seen, seen'])
      · rw [farDown, nearDown, down, List.append_assoc]
      · rw [queue flag alive']
        exact pending
  | lost conn flag frames dropped reason near' far' deaf alive' down pending =>
      obtain ⟨stays, more, nearDown, farDown⟩ := conns conn far'
      refine .lost conn flag frames (dropped ++ more) reason (near.trans near') (far.trans far')
        (stays deaf) (alive.trans alive') ?_ ?_
      · rw [farDown, down, List.append_assoc]
      · rw [queue flag alive']
        exact pending
  | off near' far' pending =>
      refine .off (near.trans near') (far.trans far') ?_
      intro flag current
      rw [alive] at current
      rw [queue flag current]
      exact pending flag current

/-- Both worlds have the same open connection, or none that is heard. -/
theorem wired (phase : Phase threaded world key) :
    (∃ conn, threaded.links key = some conn ∧ world.links key = some conn ∧
        (threaded.clients key).impl.socket = true) ∨
      threaded.links key = none ∧ ∀ conn, world.links key = some conn →
        (world.conns conn).listening = false := by
  cases phase with
  | linked conn flag frames near far alive socket => exact .inl ⟨conn, near, far, socket⟩
  | lost conn flag frames dropped reason near far deaf =>
      refine .inr ⟨near, fun other same => ?_⟩
      obtain rfl : conn = other := Option.some.inj (far.symm.trans same)
      exact deaf
  | off near far => exact .inr ⟨near, fun conn same => by cases far.symm.trans same⟩

end Phase

namespace Represents

variable {threaded : ThreadedWorld} {world : World} (represents : Represents threaded world)
  (key : ℕ)

include represents

/-- What a client sends reaches the server alike, or is lost alike. -/
theorem up_turn {event : ThreadEvent} {middle : World} (app : ClientApp)
    {messages : List ClientMessage} (links : middle.links = world.links)
    (up : ∀ conn, (middle.conns conn).up = (world.conns conn).up)
    (listening : ∀ conn, (middle.conns conn).listening = (world.conns conn).listening)
    (sent : sentMessages ((threaded.clients key).step unmeasured event).2 =
      if (threaded.clients key).impl.socket then messages else []) (conn : ConnId) :
    ((middle.act key (app, messages)).conns conn).up = ((threaded.turn key event).conns conn).up := by
  rcases (represents.phase key).wired with ⟨own, near, far, socket⟩ | ⟨near, deaf⟩
  · rw [socket, if_pos rfl] at sent
    rw [World.conns_act_of_linked middle key _ (links ▸ far),
      ThreadedWorld.conns_turn_of_linked threaded key event near, sent]
    by_cases same : conn = own
    · subst same
      rw [Function.update_self, Function.update_self, Connection.send, Connection.send,
        listening conn, represents.listening conn]
      split
      · dsimp only
        rw [up conn, represents.up conn]
      · exact (up conn).trans (represents.up conn)
    · rw [Function.update_of_ne same, Function.update_of_ne same]
      exact (up conn).trans (represents.up conn)
  · rw [ThreadedWorld.conns_turn_of_unlinked threaded key event near]
    refine Eq.trans ?_ ((up conn).trans (represents.up conn))
    by_cases own : middle.links key = some conn
    · rw [World.conns_act_of_linked middle key _ own, Function.update_self,
        Connection.send_deaf]
      rw [listening conn]
      exact deaf conn (links ▸ own)
    · rw [World.conns_act_of_ne middle key _ own]

theorem sessions_turn (event : ThreadEvent) (other : ℕ) :
    ∃ done, Sessions done ((threaded.turn key event).clients other) := by
  by_cases same : other = key
  · subst same
    obtain ⟨done, sessions⟩ := represents.sessions other
    rw [ThreadedWorld.clients_turn_self]
    exact ⟨_, sessions.step unmeasured event⟩
  · rw [ThreadedWorld.clients_turn_of_ne threaded key event same]
    exact represents.sessions other

/-- A client's step that leaves its queue and its connection alone. -/
theorem acts (event : ThreadEvent) (next : ClientThreads) (messages : List ClientMessage)
    (ran : (threaded.clients key).step unmeasured event =
      (next, if (threaded.clients key).impl.socket then messages.map .sent else []))
    (impl : next.impl = (threaded.clients key).impl)
    (queue : ∀ flag, (threaded.clients key).impl.alive = some flag →
      pendingUnder flag next.queue = pendingUnder flag (threaded.clients key).queue) :
    Represents (threaded.turn key event)
      (world.act key (⟨next.component, (world.apps key).lastSeenServerSeq⟩, messages)) := by
  have client : (threaded.turn key event).clients key = next := by
    rw [ThreadedWorld.clients_turn_self, ran]
  have sent : sentMessages ((threaded.clients key).step unmeasured event).2 =
      if (threaded.clients key).impl.socket then messages else [] := by
    rw [ran]
    dsimp only
    split
    · exact sentMessages_map messages
    · rfl
  refine ⟨represents.room, represents.nextConn, ?_, ?_, ?_, represents.sessions_turn key event, ?_⟩
  · intro other
    by_cases same : other = key
    · subst same
      rw [client, World.apps_act_self]
    · rw [ThreadedWorld.clients_turn_of_ne threaded key event same, World.apps_act_of_ne same]
      exact represents.components other
  · exact represents.up_turn key _ rfl (fun _ => rfl) (fun _ => rfl) sent
  · intro conn
    rw [World.listening_act, ThreadedWorld.listening_turn]
    exact represents.listening conn
  · intro other
    have conns : ∀ conn, world.links other = some conn →
        ((world.conns conn).listening = false → ((world.act key
          (⟨next.component, (world.apps key).lastSeenServerSeq⟩, messages)).conns
            conn).listening = false) ∧ ∃ more,
          ((threaded.turn key event).conns conn).down = (threaded.conns conn).down ++ more ∧
            ((world.act key (⟨next.component, (world.apps key).lastSeenServerSeq⟩,
              messages)).conns conn).down = (world.conns conn).down ++ more := by
      intro conn _
      refine ⟨(World.listening_act world key _ conn).trans, [], ?_, ?_⟩
      · rw [ThreadedWorld.down_turn, List.append_nil]
      · rw [World.down_act, List.append_nil]
    by_cases same : other = key
    · subst same
      refine (represents.phase other).congr rfl rfl ?_ ?_ ?_ ?_ ?_ conns
      · rw [client, impl]
      · rw [client, impl]
      · rw [client]
        exact queue
      · rw [client, impl]
      · rw [World.apps_act_self]
    · refine (represents.phase other).congr rfl rfl ?_ ?_ ?_ ?_ ?_ conns
      all_goals first
        | rw [ThreadedWorld.clients_turn_of_ne threaded key event same]
        | rw [World.apps_act_of_ne same]
      exact fun _ _ => rfl

/-- An event that comes to nothing outside the transport. -/
theorem idles (event : ThreadEvent) (next : ClientThreads)
    (ran : (threaded.clients key).step unmeasured event = (next, []))
    (component : next.component = (threaded.clients key).component)
    (impl : next.impl = (threaded.clients key).impl)
    (queue : ∀ flag, (threaded.clients key).impl.alive = some flag →
      pendingUnder flag next.queue = pendingUnder flag (threaded.clients key).queue) :
    Represents (threaded.turn key event) world := by
  have acted := represents.acts key event next [] (by simpa using ran) impl queue
  have same : (⟨next.component, (world.apps key).lastSeenServerSeq⟩ : ClientApp) =
      world.apps key := by
    rw [component, ← represents.components key]
  rwa [same, World.act_self_nil] at acted

/-- The same messages are on their way to the server. -/
theorem exact {read : ClientMessage → JsValue} (exact : threaded.Exact read) : world.Exact read :=
  fun conn message sent => exact conn message (represents.up conn ▸ sent)

variable {read : ClientMessage → JsValue} {config : RoomConfig}
  (reachable : ReachableBy read config world)

include reachable

theorem edit (now : ℚ) (delta : StateDelta)
    (allowed : (threaded.clients key).component.canControlLocally = true)
    (named : delta.NamesTrack)
    (exact : (threaded.turn key (.message (.edit now delta))).Exact read) :
    ∃ after, ReachableBy read config after ∧
      Represents (threaded.turn key (.message (.edit now delta))) after := by
  cases free : (threaded.clients key).stopping with
  | some next =>
      refine ⟨world, reachable,
        represents.idles key _ (threaded.clients key) ?_ rfl rfl fun _ _ => rfl⟩
      simp only [ClientThreads.step, free]
  | none =>
      let done := (threaded.clients key).component.applyDelta now delta .own
      have acted : Represents (threaded.turn key (.message (.edit now delta)))
          (world.act key ((world.apps key).step (.edit now delta))) := by
        rw [ClientApp.step, ClientApp.withComponent, represents.components key]
        exact represents.acts key (.message (.edit now delta))
          { threaded.clients key with component := done.1 } done.2
          (by simp only [ClientThreads.step, free, ClientThreads.messageStep, ClientThreads.act,
            sendAll_unmeasured, done]) rfl fun _ _ => rfl
      exact ⟨_, reachable.step (.edit world key now delta
        ((represents.components key).symm ▸ allowed) named) reachable.meant.bounded
          (acted.exact exact), acted⟩

theorem tick (now : ℚ) (exact : (threaded.turn key (.message (.tick now))).Exact read) :
    ∃ after, ReachableBy read config after ∧
      Represents (threaded.turn key (.message (.tick now))) after := by
  cases free : (threaded.clients key).stopping with
  | some next =>
      refine ⟨world, reachable,
        represents.idles key _ (threaded.clients key) ?_ rfl rfl fun _ _ => rfl⟩
      simp only [ClientThreads.step, free]
  | none =>
      let done := (threaded.clients key).component.publisherTick now
      have acted : Represents (threaded.turn key (.message (.tick now)))
          (world.act key ((world.apps key).step (.tick now))) := by
        rw [ClientApp.step, ClientApp.withComponent, represents.components key]
        exact represents.acts key (.message (.tick now))
          { threaded.clients key with component := done.1 } done.2
          (by simp only [ClientThreads.step, free, ClientThreads.messageStep, ClientThreads.act,
            sendAll_unmeasured, done]) rfl fun _ _ => rfl
      exact ⟨_, reachable.step (.tick world key now) reachable.meant.bounded (acted.exact exact),
        acted⟩

theorem connectButton (name room : String) :
    ∃ after, ReachableBy read config after ∧
      Represents (threaded.turn key (.message (.connectButton name room))) after := by
  refine ⟨world, reachable, ?_⟩
  cases free : (threaded.clients key).stopping with
  | some next =>
      refine represents.idles key _ (threaded.clients key) ?_ rfl rfl fun _ _ => rfl
      simp only [ClientThreads.step, free]
  | none =>
      let next : Client.Teardown := if (threaded.clients key).component.connected then
        .disconnect else .connect name room
      refine represents.idles key _ ((threaded.clients key).flip next) ?_ rfl rfl fun _ _ => rfl
      simp only [ClientThreads.step, free, ClientThreads.messageStep, next]

/-- The button is greyed out unless the client is connected, and then it has a link. -/
theorem claimButton (exact : (threaded.turn key (.message .claimButton)).Exact read) :
    ∃ after, ReachableBy read config after ∧
      Represents (threaded.turn key (.message .claimButton)) after := by
  cases free : (threaded.clients key).stopping with
  | some next =>
      refine ⟨world, reachable,
        represents.idles key _ (threaded.clients key) ?_ rfl rfl fun _ _ => rfl⟩
      simp only [ClientThreads.step, free]
  | none =>
      cases online : (threaded.clients key).component.connected with
      | false =>
          refine ⟨world, reachable,
            represents.idles key _ (threaded.clients key) ?_ rfl rfl fun _ _ => rfl⟩
          simp only [ClientThreads.step, free, ClientThreads.messageStep, online,
            Bool.false_eq_true, ↓reduceIte]
      | true =>
          have linked : ∃ conn, world.links key = some conn := by
            cases link : world.links key with
            | some conn => exact ⟨conn, rfl⟩
            | none =>
                have lost := reachable.meant.offline.unlinked key link
                rw [represents.components key, online] at lost
                cases lost
          obtain ⟨conn, linked⟩ := linked
          have app : (⟨(threaded.clients key).component, (world.apps key).lastSeenServerSeq⟩ :
              ClientApp) = world.apps key := by
            rw [← represents.components key]
          have clicked : ∀ message : ClientMessage, (if (threaded.clients key).component.role =
              .controller then ClientMessage.releaseControl else .claimControl) = message →
              Represents (threaded.turn key (.message .claimButton))
                (world.act key (world.apps key, [message])) := by
            intro message chosen
            have acted := represents.acts key (.message .claimButton) (threaded.clients key)
              [message] (by
                simp only [ClientThreads.step, free, ClientThreads.messageStep, online, ↓reduceIte,
                  chosen]
                rfl) rfl fun _ _ => rfl
            rwa [app] at acted
          by_cases controls : (threaded.clients key).component.role = .controller
          · have acted := clicked _ (if_pos controls)
            exact ⟨_, reachable.step (.releaseControl world key conn linked)
              reachable.meant.bounded (acted.exact exact), acted⟩
          · have acted := clicked _ (if_neg controls)
            exact ⟨_, reachable.step (.claimControl world key conn linked)
              reachable.meant.bounded (acted.exact exact), acted⟩

end Represents

end DjApp.System
