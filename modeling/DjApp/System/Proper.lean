import DjApp.System.Followers

/-! What holds in every reachable world of the room, of each client and of what is in
flight between them. -/

set_option autoImplicit false

namespace DjApp.System

open Library
open Server (ConnId Frame Room RoomConfig Registration IsMember Transition framesTo)
open Client (ClientApp ClientMessage PlaybackState StateDelta)

section Membership

variable {config : RoomConfig} {room : Room} {call : Server.Call} {handled : Server.Handled}

theorem joined (transition : Transition config room call handled) {conn : ConnId}
    (before : room.conns conn = none) (after : handled.1.conns conn ≠ none) :
    call.conn = conn ∧ ∃ id name, handled = Server.welcome room conn id name ∧
      room.clients.lookup id = none := by
  cases transition with
  | idle | claim | release | delta | leave => exact absurd before after
  | join joining msg draws id name unregistered fresh free named isHello =>
      by_cases same : joining = conn
      · subst same
        exact ⟨rfl, id, name, rfl, fresh⟩
      · simp [Server.welcome, Room.register, Function.update_of_ne (Ne.symm same), before] at after

theorem isMember_register {conn : ConnId} {id : Server.ClientId} {name : JsString}
    (valid : (room.register conn id name).Valid config) :
    IsMember (room.register conn id name) conn ⟨id, name⟩ where
  registered := by simp [Room.register]
  live := AssocList.lookup_of_mem valid.distinctIds (by simp [Room.register])

/-- No message ends a membership. -/
theorem isMember_message {conn caller : ConnId} {msg : JsValue} {draws : Server.Draws}
    (transition : Transition config room (.message caller msg draws) handled)
    {registration : Registration} (member : IsMember room conn registration) :
    IsMember handled.1 conn registration := by
  obtain ⟨registered, live⟩ := member
  cases transition with
  | idle => exact ⟨registered, live⟩
  | claim | release | delta => exact ⟨registered, live⟩
  | join joining msg draws id name unregistered fresh free named isHello =>
      have other : conn ≠ caller := by
        rintro rfl
        rw [registered] at unregistered
        cases unregistered
      refine ⟨?_, ?_⟩
      · simpa [Server.welcome, Room.register, Function.update_of_ne other] using registered
      · simp [Server.welcome, Room.register, List.lookup_append, live]

theorem isMember_disconnect {conn gone : ConnId} (other : conn ≠ gone)
    (transition : Transition config room (.disconnect gone) handled) {registration : Registration}
    (member : IsMember room conn registration) : IsMember handled.1 conn registration := by
  cases transition with
  | idle => exact member
  | leave leaving departed departing =>
      have unlike : registration.id ≠ departed.id := fun same =>
        other (member.conn_eq departing same)
      exact ⟨member.registered, (AssocList.lookup_filter_ne unlike _).trans member.live⟩

theorem not_isMember_disconnect (config : RoomConfig) (room : Room) (conn : ConnId)
    (registration : Registration) :
    ¬ IsMember (room.step config (.disconnect conn)).1 conn registration := by
  intro member
  simp only [Room.step, Server.handleDisconnect] at member
  split at member
  · rename_i unregistered
    rw [member.registered] at unregistered
    cases unregistered
  · rename_i own registered
    split at member
    · have same : registration = own :=
        Option.some.inj (member.registered.symm.trans registered)
      have found := AssocList.mem_of_lookup member.live
      simp [Room.remove, same] at found
    · rename_i stranger
      have same : registration = own :=
        Option.some.inj (member.registered.symm.trans registered)
      exact stranger ((Server.isMember_eq_true_iff registered).mpr (same ▸ member))

/-- Only a connection that was not let in is closed by a call. -/
theorem closes_imp (transition : Transition config room call handled) {conn : ConnId}
    (closed : closes conn handled.2.effects = true) :
    handled.1 = room ∧ room.conns conn = none := by
  obtain ⟨effect, member, isClose⟩ := List.any_eq_true.mp closed
  have broadcast : ∀ (room : Room) (frame : Frame) (except : Option ConnId),
      effect ∉ room.broadcast frame except := by
    intro room frame except sent
    obtain ⟨target, _, _, rfl⟩ := Server.mem_broadcast_iff.mp sent
    cases isClose
  cases transition with
  | idle call outcome answers noDelta =>
      refine ⟨rfl, ?_⟩
      cases answers effect member with
      | close unregistered code =>
          have same : call.conn = conn := by simpa using isClose
          exact same ▸ unregistered
      | error | snapshot => cases isClose
  | join joining msg draws id name unregistered fresh free named isHello =>
      rcases List.mem_cons.mp member with rfl | announced
      · cases isClose
      · exact absurd announced (broadcast _ _ _)
  | claim | release | delta | leave => exact absurd member (broadcast _ _ _)

end Membership

namespace Connection

variable (connection : Connection) (conn : ConnId) (effects : List Server.Effect)

@[simp] theorem down_hear :
    (connection.hear conn effects).down = connection.down ++ framesTo conn effects := by
  unfold hear
  split <;> rfl

theorem up_hear : (connection.hear conn effects).up =
    if closes conn effects then [] else connection.up := by
  unfold hear
  split <;> rfl

theorem listening_hear : (connection.hear conn effects).listening =
    (connection.listening && !closes conn effects) := by
  unfold hear
  split <;> rename_i closed <;> simp [close, closed]

@[simp] theorem down_send (messages : List ClientMessage) :
    (connection.send messages).down = connection.down := by
  unfold send
  split <;> rfl

@[simp] theorem listening_send (messages : List ClientMessage) :
    (connection.send messages).listening = connection.listening := by
  unfold send
  split <;> rfl

theorem mem_up_send {messages : List ClientMessage} {message : ClientMessage}
    (member : message ∈ (connection.send messages).up) :
    message ∈ connection.up ∨ connection.listening = true ∧ message ∈ messages := by
  unfold send at member
  split at member
  · rename_i listening
    exact (List.mem_append.mp member).imp_right fun sent => ⟨listening, sent⟩
  · exact .inl member

end Connection

namespace World

section Act

variable (world : World) (key : ℕ) (done : ClientApp × List ClientMessage)

@[simp] theorem room_act : (world.act key done).room = world.room := rfl

@[simp] theorem links_act : (world.act key done).links = world.links := rfl

theorem conns_act_of_linked {conn : ConnId} (linked : world.links key = some conn) :
    (world.act key done).conns =
      Function.update world.conns conn ((world.conns conn).send done.2) := by
  simp [act, linked]

theorem conns_act_of_ne {conn : ConnId} (other : world.links key ≠ some conn) :
    (world.act key done).conns conn = world.conns conn := by
  unfold act
  cases linked : world.links key with
  | none => rfl
  | some own =>
      have unlike : conn ≠ own := by
        rintro rfl
        exact other linked
      simp [Function.update_of_ne unlike]

@[simp] theorem down_act (conn : ConnId) :
    ((world.act key done).conns conn).down = (world.conns conn).down := by
  by_cases own : world.links key = some conn
  · simp [conns_act_of_linked world key done own]
  · rw [conns_act_of_ne world key done own]

@[simp] theorem listening_act (conn : ConnId) :
    ((world.act key done).conns conn).listening = (world.conns conn).listening := by
  by_cases own : world.links key = some conn
  · simp [conns_act_of_linked world key done own]
  · rw [conns_act_of_ne world key done own]

theorem mem_up_act {conn : ConnId} {message : ClientMessage}
    (member : message ∈ ((world.act key done).conns conn).up) :
    message ∈ (world.conns conn).up ∨
      world.links key = some conn ∧ (world.conns conn).listening = true ∧ message ∈ done.2 := by
  by_cases own : world.links key = some conn
  · rw [conns_act_of_linked world key done own, Function.update_self] at member
    exact ((world.conns conn).mem_up_send member).imp_right fun sent => ⟨own, sent⟩
  · rw [conns_act_of_ne world key done own] at member
    exact .inl member

end Act

/-- A deck of the room that a client has in full. -/
def IsImage (deck : Server.Deck) : Prop := ∃ state : PlaybackState, deck = state.toDeck

/-- What holds of every reachable world, whatever the room and its clients have done. -/
structure Proper (config : RoomConfig) (world : World) : Prop where
  valid : world.room.Valid config
  named : world.room.Named
  images : ∀ entry ∈ world.room.decks, IsImage entry.2
  apps : ∀ key, (world.apps key).Sound
  frames : ∀ conn, ∀ frame ∈ (world.conns conn).down, frame.Valid config
  messages : ∀ conn, ∀ message ∈ (world.conns conn).up, message.Publishable
  alone : ∀ key other conn, world.links key = some conn → world.links other = some conn →
    key = other
  opened : ∀ key conn, world.links key = some conn → conn < world.nextConn
  unused : ∀ conn, world.nextConn ≤ conn → world.conns conn = {} ∧ world.room.conns conn = none
  silent : ∀ conn, world.room.conns conn = none → (world.conns conn).down = []

namespace Proper

variable {config : RoomConfig} {world : World} (proper : Proper config world)

theorem initial : Proper config .initial where
  valid := .createRoom config
  named := .createRoom
  images := by
    intro entry member
    obtain rfl := List.mem_singleton.mp member
    exact ⟨{}, Client.toDeck_default.symm⟩
  apps := fun _ => .initial
  frames := by simp [World.initial]
  messages := by simp [World.initial]
  alone := by simp [World.initial]
  opened := by simp [World.initial]
  unused := fun _ _ => ⟨rfl, rfl⟩
  silent := fun _ _ => rfl

include proper

theorem used {conn : ConnId} (listening : (world.conns conn).listening = true) :
    conn < world.nextConn := by
  by_contra unused
  rw [(proper.unused conn (not_lt.mp unused)).1] at listening
  cases listening

/-- A client's step that takes nothing from its room. -/
theorem act (key : ℕ) {done : ClientApp × List ClientMessage} (app : done.1.Sound)
    (publishable : ∀ message ∈ done.2, message.Publishable) :
    Proper config (world.act key done) where
  valid := proper.valid
  named := proper.named
  images := proper.images
  apps other := by
    by_cases same : other = key
    · subst same
      simpa [World.act] using app
    · simpa [World.act, same] using proper.apps other
  frames conn := by
    rw [down_act]
    exact proper.frames conn
  messages conn message member := by
    rcases mem_up_act world key done member with earlier | ⟨_, _, sent⟩
    · exact proper.messages conn message earlier
    · exact publishable message sent
  alone := proper.alone
  opened := proper.opened
  unused conn fresh := by
    have other : world.links key ≠ some conn := fun linked =>
      absurd (proper.opened key conn linked) (not_lt.mpr fresh)
    rw [conns_act_of_ne world key done other]
    exact proper.unused conn fresh
  silent conn := by
    rw [down_act]
    exact proper.silent conn

/-- A delta of a client keeps the decks of the room images of client states. -/
theorem images_call {call : Server.Call} {handled : Server.Handled}
    (transition : Transition config world.room call handled)
    (sent : ∀ conn msg draws, call = .message conn msg draws →
      ∃ message : ClientMessage, msg = message.asJs ∧ message.Publishable) :
    ∀ entry ∈ handled.1.decks, IsImage entry.2 := by
  cases transition with
  | idle | join | claim | release | leave => exact proper.images
  | delta conn msg draws registration deck changes member controls validated =>
      obtain ⟨message, rfl, publishable⟩ := sent conn msg draws rfl
      obtain ⟨delta, rfl, rfl, rfl⟩ := validateDelta_asJs publishable validated
      have start : IsImage Server.defaultDeckState := ⟨{}, Client.toDeck_default.symm⟩
      refine Server.writeDeck_forall start ?_ proper.images
      rintro _ ⟨state, rfl⟩
      exact ⟨state.merge delta, Client.assignChanges_toDeck state delta⟩

/-- A connection that is not let in hears nothing. -/
theorem unheard {call : Server.Call} {handled : Server.Handled}
    (transition : Transition config world.room call handled) {conn : ConnId}
    (unregistered : handled.1.conns conn = none) :
    world.room.conns conn = none ∧ framesTo conn handled.2.effects = [] := by
  obtain ⟨before, nothing⟩ := transition.unheard proper.valid unregistered
  rw [Server.rowLog, List.append_eq_nil_iff, List.map_eq_nil_iff] at nothing
  exact ⟨before, nothing.1⟩

theorem call {call : Server.Call}
    (sent : ∀ conn msg draws, call = .message conn msg draws →
      ∃ message : ClientMessage, msg = message.asJs ∧ message.Publishable)
    (used : call.conn < world.nextConn) : Proper config (world.call config call) := by
  have transition := Server.step_transition config world.room call
  exact {
    valid := transition.valid proper.valid
    named := transition.named proper.named
    images := proper.images_call transition sent
    apps := proper.apps
    frames := by
      intro conn frame member
      simp only [World.call, Connection.down_hear, List.mem_append] at member
      rcases member with earlier | heard
      · exact proper.frames conn frame earlier
      · exact (transition.frames proper.valid proper.named (Server.mem_framesTo_iff.mp heard)).1
    messages := by
      intro conn message member
      simp only [World.call, Connection.up_hear] at member
      split at member
      · cases member
      · exact proper.messages conn message member
    alone := proper.alone
    opened := proper.opened
    unused := by
      intro conn fresh
      obtain ⟨blank, before⟩ := proper.unused conn fresh
      have unregistered : (world.room.step config call).1.conns conn = none := by
        by_contra welcomed
        have caller := (joined transition before welcomed).1
        exact absurd used (not_lt.mpr (caller ▸ fresh))
      refine ⟨?_, unregistered⟩
      have nothing := (proper.unheard transition unregistered).2
      simp [World.call, Connection.hear, blank, nothing, Connection.close]
    silent := by
      intro conn unregistered
      obtain ⟨before, nothing⟩ := proper.unheard transition unregistered
      simp [World.call, nothing, proper.silent conn before] }

theorem setConn {conn : ConnId} {connection : Connection} (used : conn < world.nextConn)
    (down : ∀ frame ∈ connection.down, frame ∈ (world.conns conn).down)
    (up : ∀ message ∈ connection.up, message ∈ (world.conns conn).up) :
    Proper config (world.setConn conn connection) where
  valid := proper.valid
  named := proper.named
  images := proper.images
  apps := proper.apps
  frames other frame member := by
    by_cases same : other = conn
    · subst same
      simp only [World.setConn, Function.update_self] at member
      exact proper.frames other frame (down frame member)
    · simp only [World.setConn, Function.update_of_ne same] at member
      exact proper.frames other frame member
  messages other message member := by
    by_cases same : other = conn
    · subst same
      simp only [World.setConn, Function.update_self] at member
      exact proper.messages other message (up message member)
    · simp only [World.setConn, Function.update_of_ne same] at member
      exact proper.messages other message member
  alone := proper.alone
  opened := proper.opened
  unused other fresh := by
    have unlike : other ≠ conn := fun same => absurd used (not_lt.mpr (same ▸ fresh))
    simp only [World.setConn, Function.update_of_ne unlike]
    exact proper.unused other fresh
  silent other unregistered := by
    have nothing := proper.silent other unregistered
    by_cases same : other = conn
    · subst same
      simp only [World.setConn, Function.update_self]
      exact List.eq_nil_iff_forall_not_mem.mpr fun frame member => by
        simpa [nothing] using down frame member
    · simp only [World.setConn, Function.update_of_ne same]
      exact nothing

theorem link_connect {key other : ℕ} {conn : ConnId}
    (linked : Function.update world.links key (some world.nextConn) other = some conn) :
    other = key ∧ conn = world.nextConn ∨
      other ≠ key ∧ world.links other = some conn ∧ conn ≠ world.nextConn := by
  by_cases same : other = key
  · subst same
    simp only [Function.update_self, Option.some.injEq] at linked
    exact .inl ⟨rfl, linked.symm⟩
  · rw [Function.update_of_ne same] at linked
    exact .inr ⟨same, linked, (proper.opened other conn linked).ne⟩

theorem connect (key : ℕ) (message : ClientMessage) (publishable : message.Publishable) :
    Proper config
      { world with
        apps := Function.update world.apps key (world.apps key).connect
        links := Function.update world.links key (some world.nextConn)
        conns := Function.update world.conns world.nextConn { up := [message], listening := true }
        nextConn := world.nextConn + 1 } where
  valid := proper.valid
  named := proper.named
  images := proper.images
  apps other := by
    by_cases same : other = key
    · subst same
      simpa using (proper.apps other).connect
    · simpa [same] using proper.apps other
  frames conn := by
    by_cases same : conn = world.nextConn
    · simp [same]
    · simpa [same] using proper.frames conn
  messages conn := by
    by_cases same : conn = world.nextConn
    · simpa [same] using publishable
    · simpa [same] using proper.messages conn
  alone left right conn leftLinked rightLinked := by
    rcases proper.link_connect leftLinked with ⟨leftSame, fresh⟩ | ⟨_, leftBefore, known⟩ <;>
      rcases proper.link_connect rightLinked with ⟨rightSame, newest⟩ | ⟨_, rightBefore, older⟩
    · rw [leftSame, rightSame]
    · exact absurd fresh older
    · exact absurd newest known
    · exact proper.alone left right conn leftBefore rightBefore
  opened other conn linked := by
    rcases proper.link_connect linked with ⟨_, rfl⟩ | ⟨_, before, _⟩
    · exact Nat.lt_succ_self _
    · exact (proper.opened other conn before).trans (Nat.lt_succ_self _)
  unused conn later := by
    have unlike : conn ≠ world.nextConn := (Nat.lt_of_succ_le later).ne'
    simpa [unlike] using proper.unused conn (Nat.le_of_succ_le later)
  silent conn unregistered := by
    by_cases same : conn = world.nextConn
    · simp [same]
    · simpa [same] using proper.silent conn unregistered

omit proper in
theorem link_leave {key other : ℕ} {conn : ConnId}
    (linked : Function.update world.links key none other = some conn) :
    other ≠ key ∧ world.links other = some conn := by
  have unlike : other ≠ key := by
    rintro rfl
    simp at linked
  exact ⟨unlike, by simpa [unlike] using linked⟩

theorem leave (key : ℕ) :
    Proper config
      { world with
        apps := Function.update world.apps key (world.apps key).closed
        links := Function.update world.links key none } where
  valid := proper.valid
  named := proper.named
  images := proper.images
  apps other := by
    by_cases same : other = key
    · subst same
      simpa using (proper.apps other).closed
    · simpa [same] using proper.apps other
  frames := proper.frames
  messages := proper.messages
  alone left right conn leftLinked rightLinked :=
    proper.alone left right conn (link_leave leftLinked).2 (link_leave rightLinked).2
  opened other conn linked := proper.opened other conn (link_leave linked).2
  unused := proper.unused
  silent := proper.silent

theorem replies_publishable (key : ℕ) (frame : Frame) :
    ∀ message ∈ (world.apps key).replies frame, message.Publishable := by
  cases frame with
  | delta serverSeq source deck changes =>
      simp only [ClientApp.replies]
      split <;> simp [ClientMessage.Publishable]
  | roleChanged id role =>
      simp only [ClientApp.replies]
      split
      · exact (proper.apps key).pushFullResync
      · simp
  | welcome | peerJoined | peerLeft | snapshot | error => simp [ClientApp.replies]

theorem deliver {key : ℕ} {conn : ConnId} (linked : world.links key = some conn) {frame : Frame}
    {rest : List Frame} (first : (world.conns conn).down = frame :: rest) :
    Proper config ((world.setConn conn { world.conns conn with down := rest }).act key
      ((world.apps key).receive frame, (world.apps key).replies frame)) := by
  have valid : frame.Valid config := proper.frames conn frame (by simp [first])
  have taken := @Proper.setConn _ _ proper conn { world.conns conn with down := rest }
    (proper.opened key conn linked) (fun other member => first ▸ List.mem_cons_of_mem _ member)
    fun _ member => member
  exact taken.act key ((proper.apps key).receive valid) (proper.replies_publishable key frame)

theorem step {after : World} (stepped : Step config world after) : Proper config after := by
  cases stepped with
  | connect key name room unlinked built => exact proper.connect key (.hello name room) trivial
  | leave key conn linked settled => exact proper.leave key
  | drop conn listening =>
      have closed := @Proper.setConn _ _ proper conn (world.conns conn).close
        (proper.used listening) (fun _ member => member) (by simp [Connection.close])
      refine closed.call ?_ (proper.used listening)
      intro other msg draws shape
      cases shape
  | serve conn message rest draws listening first =>
      have publishable := proper.messages conn message (by simp [first])
      have taken := @Proper.setConn _ _ proper conn { world.conns conn with up := rest }
        (proper.used listening) (fun _ member => member)
        (fun sent member => first ▸ List.mem_cons_of_mem _ member)
      refine taken.call ?_ (proper.used listening)
      rintro other msg answered ⟨⟩
      exact ⟨message, rfl, publishable⟩
  | deliver key conn now frame rest linked first settled =>
      have valid : frame.Valid config := proper.frames conn frame (by simp [first])
      rw [Client.dispatch_toVar _ now valid]
      exact proper.deliver linked first
  | claimControl key conn linked | releaseControl key conn linked =>
      exact proper.act key (proper.apps key) (by simp [ClientMessage.Publishable])
  | edit key now delta allowed named =>
      obtain ⟨app, publishable⟩ := (proper.apps key).edit now named
      exact proper.act key app publishable
  | tick key now =>
      obtain ⟨app, publishable⟩ := (proper.apps key).tick now
      exact proper.act key app publishable

end Proper

end World

theorem ReachableBy.proper {config : RoomConfig} {world : World} (reachable : Reachable config world) :
    world.Proper config := by
  induction reachable with
  | initial => exact .initial
  | step reachable stepped bounded _ ih => exact ih.step stepped

end DjApp.System
