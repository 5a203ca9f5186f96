import DjApp.System.Scenario
import DjApp.System.Serving

/-! Every member's client comes to show the decks of the room, whenever the room has a
controller and all is quiet. -/

set_option autoImplicit false

namespace DjApp.System

open Library
open Server (ConnId Frame Room RoomConfig Registration IsMember Transition framesTo)
open Client (ClientApp ClientMessage Decks StateDelta Standing deltasOf)

namespace World

variable {config : RoomConfig} {world : World}

section Own

variable {settled : DeckId → Prop} {key : ℕ} {conn : ConnId} {registration : Registration}
  (sound : Sound config world) (governed : Governed world key conn registration settled)
  (member : IsMember world.room conn registration)
  (controls : world.room.controllerId = some registration.id) {message : ClientMessage}
  {rest : List ClientMessage} (first : (world.conns conn).up = message :: rest)
  (draws : Server.Draws)

include sound governed member controls first

/-- A message of the controller that the room answers with an error. -/
theorem governed_refused {code : Server.ErrorCode} {text : String}
    (refused : world.room.step config (.message conn message.asJs draws) =
      Server.refuse world.room conn code text)
    (nothing : deltasOf (message :: rest) = deltasOf rest)
    (after : Sound config (world.served config (.message conn message.asJs draws)
      { world.conns conn with up := rest })) :
    Governed (world.served config (.message conn message.asJs draws)
      { world.conns conn with up := rest }) key conn registration settled := by
  let connection : Connection := { world.conns conn with up := rest }
  have room : (world.served config (.message conn message.asJs draws) connection).room =
      world.room := by
    simp only [served, World.call, setConn, refused, Server.refuse]
  have stays : IsMember (world.served config (.message conn message.asJs draws) connection).room conn
      registration := room ▸ member
  have down := @down_served config world (.message conn message.asJs draws) connection rfl conn
  have heard : framesTo conn (world.room.step config (.message conn message.asJs draws)).2.effects =
      [.error code text] := by
    simp [refused, Server.refuse]
  have up := (@up_served_of_member config world (.message conn message.asJs draws) connection conn
    registration stays).trans (if_pos rfl)
  rw [heard] at down
  constructor
  · intro deck done
    rw [room]
    exact governed.present deck done
  · cases governed.steers with
    | granted earlier later queue calm own observes =>
        refine .granted earlier (later ++ [.error code text]) ?_ ?_ own observes
        · rw [down, queue, List.append_assoc, List.cons_append]
        · exact List.forall_mem_append.mpr ⟨calm, by simp [Calm]⟩
    | holds role calm owes covered =>
        rw [first, nothing] at owes covered
        refine .holds role ?_ ?_ ?_
        · rw [down]
          exact List.forall_mem_append.mpr ⟨calm, by simp [Calm]⟩
        · rw [up, room]
          exact owes
        · rw [up]
          exact covered
  · intro reader conn' registration' linked joined unlike
    have quiet : (world.room.step config (.message conn message.asJs draws)).1 = world.room := by
      rw [refused]
      rfl
    have same : connection.down = (world.conns conn).down := rfl
    exact tracks_served sound same after governed.present (by rw [quiet]) (by rw [quiet]) linked
      joined stays (room ▸ controls) unlike fun registration was =>
        governed.tracks reader conn' registration linked was unlike

/-- A delta of the controller reaches the room, and every other member. -/
theorem governed_delta {delta : StateDelta} (isDelta : message = .delta delta)
    (publishable : delta.Publishable)
    (after : Sound config (world.served config (.message conn message.asJs draws)
      { world.conns conn with up := rest })) :
    Governed (world.served config (.message conn message.asJs draws)
      { world.conns conn with up := rest }) key conn registration
      fun deck => settled deck ∨ deck = delta.deck ∧ Full delta := by
  subst isDelta
  let connection : Connection := { world.conns conn with up := rest }
  let call : Server.Call := .message conn (ClientMessage.delta delta).asJs draws
  have transition := Server.step_transition config world.room call
  have accepted := step_delta_controller config member draws controls publishable
  have changed : (world.served config call connection).room =
      Server.applyDelta world.room delta.deck delta.toChanges :=
    congrArg Prod.fst accepted
  have shown : roomDecks (world.served config call connection).room =
      (roomDecks world.room).overlay delta := by
    rw [changed]
    exact roomDecks_applyDelta sound.images delta
  have distinct := after.valid.distinctConns
  rw [changed] at distinct
  have heard : ∀ other, framesTo other (world.room.step config call).2.effects =
      if other ∈ world.room.clients.map (·.2) ∧ some other ≠ some conn then
        [.delta (world.room.serverSeq + 1) registration.id delta.deck delta.toChanges] else [] := by
    intro other
    rw [accepted]
    exact Server.framesTo_broadcast distinct _ (some conn) other
  have stays : IsMember (world.served config call connection).room conn registration := by
    rw [changed]
    exact ⟨member.registered, member.live⟩
  have up := (@up_served_of_member config world call connection conn registration stays).trans
    (if_pos rfl)
  constructor
  · intro deck done
    rw [changed]
    rcases done with before | ⟨rfl, _⟩
    · exact lookup_applyDelta (governed.present deck before) _ _
    · simp [Server.applyDelta, Server.lookup_writeDeck]
  · have down := @down_served config world call connection rfl conn
    rw [heard conn, if_neg (by simp), List.append_nil] at down
    cases governed.steers with
    | granted earlier later queue calm own observes =>
        exact .granted earlier later (down.trans queue) calm own observes
    | holds role calm owes covered =>
        have sent : deltasOf (.delta delta :: rest) = delta :: deltasOf rest := rfl
        rw [first, sent] at owes covered
        refine .holds role (by rw [down]; exact calm) ?_ fun deck => ?_
        · rw [up, shown]
          exact owes
        · rw [up]
          rcases covered deck with before | ⟨full, listed, named, isFull⟩
          · exact .inl (.inl before)
          · rcases List.mem_cons.mp listed with rfl | later
            · exact .inl (.inr ⟨named.symm, isFull⟩)
            · exact .inr ⟨full, later, named, isFull⟩
  · intro reader conn' registration' linked joined unlike
    have registered : world.room.conns conn' ≠ none := by
      have registered := joined.registered
      rw [changed] at registered
      simp only [Server.applyDelta] at registered
      simp [registered]
    have was := transition.wasMember sound.valid registered joined
    have tracked := governed.tracks reader conn' registration' linked was unlike
    have down := @down_served config world call connection rfl conn'
    have locked := (after.follows reader conn' registration' linked joined).locked after.valid joined
      stays (by rw [changed]; exact controls) unlike
    rw [down, List.foldl_append] at locked
    rw [down]
    refine tracked.append (fun seen prior => ?_) fun deck done => ?_
    · rw [List.foldl_append]
      exact locked_between transition sound.valid registered tracked.locked_whole locked seen prior
    · rw [heard conn', if_pos ⟨was.mem_conns, by simpa using unlike⟩, shown]
      simp only [List.foldl_cons, List.foldl_nil, receive_delta, Decks.overlay_apply]
      rcases done with before | ⟨rfl, full⟩
      · refine .inr ⟨before, fun start shows => ?_⟩
        rw [shows]
      · refine .inl fun start => ?_
        rw [if_pos rfl, if_pos rfl]
        exact full _ _

theorem governed_message (publishable : message.Publishable)
    (after : Sound config (world.served config (.message conn message.asJs draws)
      { world.conns conn with up := rest }))
    (remains : (world.served config (.message conn message.asJs draws)
      { world.conns conn with up := rest }).room.controllerId = some registration.id) :
    ∃ settled, Governed (world.served config (.message conn message.asJs draws)
      { world.conns conn with up := rest }) key conn registration settled := by
  cases shape : message with
  | hello name code =>
      subst shape
      exact ⟨settled, governed_refused sound governed member controls first draws
        (step_hello_member config member draws name code) rfl after⟩
  | claimControl =>
      subst shape
      exact ⟨settled, governed_refused sound governed member controls first draws
        (step_claimControl_controller config member draws controls) rfl after⟩
  | releaseControl =>
      subst shape
      simp only [served, World.call, setConn,
        step_releaseControl_controller config member draws controls] at remains
      cases remains
  | delta delta =>
      subst shape
      exact ⟨_, governed_delta sound governed member controls first draws rfl publishable after⟩
  | requestSnapshot =>
      subst shape
      exact absurd (first ▸ List.mem_cons_self) (sound.unasked conn)

end Own

section Granting

variable {call : Server.Call} {connection : Connection}

/-- Control is granted by a call of the one who gets it, while nobody has it. -/
theorem granted_call {room : Room} {handled : Server.Handled}
    (transition : Transition config room call handled) {conn : ConnId} {registration : Registration}
    (member : IsMember handled.1 conn registration)
    (controls : handled.1.controllerId = some registration.id)
    (before : room.controllerId ≠ some registration.id) :
    IsMember room conn registration ∧ room.controllerId = none ∧ ∀ other ∈ room.clients.map (·.2),
      framesTo other (room.broadcast (.roleChanged registration.id .controller)) =
        framesTo other handled.2.effects := by
  cases transition with
  | idle | join | delta => exact absurd controls before
  | claim calling msg draws claimant claimantMember unclaimed isClaim =>
      have same : claimant.id = registration.id := Option.some.inj controls
      refine ⟨⟨member.registered, member.live⟩, unclaimed, fun other _ => ?_⟩
      rw [same]
  | release => cases controls
  | leave leaving departed leavingMember =>
      simp only [Room.remove] at controls
      split at controls
      · cases controls
      · exact absurd controls before

/-- Whoever is granted control is on its way to it, and every other member to hear of it. -/
theorem governed_granted (sound : Sound config world)
    (same : connection.down = (world.conns call.conn).down)
    (after : Sound config (world.served config call connection)) {key : ℕ} {conn : ConnId}
    {registration : Registration} (linked : world.links key = some conn)
    (member : IsMember (world.served config call connection).room conn registration)
    (controls : (world.served config call connection).room.controllerId = some registration.id)
    (before : world.room.controllerId ≠ some registration.id) :
    Governed (world.served config call connection) key conn registration fun _ => False := by
  have transition := Server.step_transition config world.room call
  obtain ⟨was, unclaimed, shown⟩ := granted_call transition member controls before
  have heard : ∀ other ∈ world.room.clients.map (·.2),
      framesTo other (world.room.step config call).2.effects =
        [.roleChanged registration.id .controller] := by
    intro other present
    rw [← shown other present, Server.framesTo_broadcast sound.valid.distinctConns,
      if_pos ⟨present, by simp⟩]
  have follows := sound.follows key conn registration linked was
  refine ⟨fun _ done => done.elim, ?_, fun reader conn' registration' readerLinked joined unlike => ?_⟩
  · refine .granted (world.conns conn).down [] ?_ (by simp) ?_ ?_
    · rw [@down_served config world call connection same, heard conn was.mem_conns]
    · exact congrArg (·.known.ownClientId) follows.stands
    · have role := congrArg (·.known.role) follows.stands
      apply role.trans
      simp [knowledgeOf, Client.Knowledge.ofReplica, replicaOf, Room.roleOfId, unclaimed]
  · have locked := (after.follows reader conn' registration' readerLinked joined).locked after.valid
      joined member controls unlike
    have present : conn' ∈ world.room.clients.map (·.2) := by
      have earlier : world.room.conns conn' ≠ none := by
        intro absent
        have registered : (world.room.step config call).1.conns conn' = some registration' :=
          joined.registered
        obtain ⟨_, id, name, shape, _⟩ := System.joined transition absent (by simp [registered])
        have moved : (world.room.step config call).1.controllerId = some registration.id := controls
        rw [shape] at moved
        exact before moved
      exact (transition.wasMember sound.valid earlier joined).mem_conns
    have down := @down_served config world call connection same conn'
    rw [heard conn' present] at down
    rw [down] at locked ⊢
    refine .awaits _ _ [] rfl (fun seen prior => ?_) fun _ done => done.elim
    obtain rfl := List.prefix_nil.mp prior
    exact locked

/-- A call leaves the room under its controller, if the controller's own calls do. -/
theorem Controlled.served (controlled : Controlled world) (sound : Sound config world)
    (same : connection.down = (world.conns call.conn).down)
    (after : Sound config (world.served config call connection))
    (own : ∀ key registration settled, Governed world key call.conn registration settled →
      IsMember world.room call.conn registration →
      world.room.controllerId = some registration.id →
      IsMember (world.served config call connection).room call.conn registration →
      (world.served config call connection).room.controllerId = some registration.id →
      ∃ settled, Governed (world.served config call connection) key call.conn registration settled) :
    Controlled (world.served config call connection) := by
  intro key conn registration linked member controls
  have transition := Server.step_transition config world.room call
  by_cases before : world.room.controllerId = some registration.id
  · have was := isMember_of_controls transition sound.valid member before
    obtain ⟨settled, governed⟩ := controlled key conn registration linked was before
    by_cases caller : call.conn = conn
    · subst caller
      exact own key registration settled governed was before member controls
    · exact ⟨settled, governed_elsewhere sound same after governed was member before controls caller⟩
  · exact ⟨_, governed_granted sound same after linked member controls before⟩

end Granting

/-- The invariant of a run whose sequence number is an `int`. -/
structure Coherent (config : RoomConfig) (world : World) : Prop where
  sound : Sound config world
  attended : Attended world
  controlled : Controlled world

theorem Coherent.initial : Coherent config .initial where
  sound := .initial
  attended := .initial
  controlled := by
    intro key conn registration linked
    cases linked

theorem Coherent.step (coherent : Coherent config world) {after : World}
    (stepped : Step config world after) (bounded : after.room.clients.length ≤ 9)
    (small : after.room.serverSeq < 2 ^ 31) : Coherent config after := by
  obtain ⟨sound, attended, controlled⟩ := coherent
  have soundAfter := sound.step attended stepped bounded small
  refine ⟨soundAfter, attended.step sound.toProper stepped, ?_⟩
  cases stepped with
  | connect key name room unlinked built => exact controlled.connect sound key _
  | leave key conn linked settled => exact controlled.leave key
  | drop conn listening =>
      refine @Controlled.served config world (.disconnect conn) (world.conns conn).close controlled
        sound rfl soundAfter ?_
      intro key registration settled governed member controls stays
      exact absurd stays (not_isMember_disconnect config world.room conn registration)
  | serve conn message rest draws listening first =>
      have publishable := sound.messages conn message (by simp [first])
      refine @Controlled.served config world (.message conn message.asJs draws)
        { world.conns conn with up := rest } controlled sound rfl soundAfter ?_
      intro key registration settled governed member controls stays remains
      exact governed_message sound governed member controls first draws publishable soundAfter
        remains
  | deliver key conn now frame rest linked first settled =>
      have valid : frame.Valid config := sound.frames conn frame (by simp [first])
      rw [Client.dispatch_toVar _ now valid] at settled ⊢
      exact controlled.deliver sound attended linked first settled
  | claimControl key conn linked | releaseControl key conn linked =>
      exact controlled.act sound attended key rfl (fun _ => rfl) fun _ _ owes => owes
  | edit key now delta allowed named =>
      refine controlled.act sound attended key (ClientApp.standing_edit _ now delta)
        (fun locked => ?_) fun role decks => ClientApp.owes_edit (sound.apps key).coherent role now delta
      have free := (ClientApp.locked_iff _).mpr locked
      rw [allowed] at free
      cases free
  | tick key now =>
      exact controlled.act sound attended key rfl (fun _ => rfl)
        fun _ _ => ClientApp.owes_tick (sound.apps key).coherent now

end World

theorem ReachableBy.coherent {config : RoomConfig} {world : World} (reachable : Reachable config world)
    (small : world.room.serverSeq < 2 ^ 31) : world.Coherent config := by
  induction reachable with
  | initial => exact .initial
  | step reachable stepped bounded _ ih =>
      exact (ih (stepped.serverSeq_le.trans_lt small)).step stepped bounded small

theorem toDeck_roomDecks {room : Room} (images : ∀ entry ∈ room.decks, World.IsImage entry.2)
    {deck : DeckId} (present : room.decks.lookup deck ≠ none) :
    room.decks.lookup deck = some (roomDecks room deck).toDeck := by
  obtain ⟨state, found⟩ := Option.ne_none_iff_exists'.mp present
  obtain ⟨image, rfl⟩ := images _ (AssocList.mem_of_lookup found)
  simp [roomDecks, Decks.ofRoom, found]

/-- Whenever all is quiet in a room with a controller, every member's client shows the
decks of the room, as long as the room's sequence number is an `int` and the digits of what
the clients sent stand for the numbers meant. -/
theorem clients_converge {digits : ℚ → ℚ} {config : RoomConfig} {world : World}
    (reachable : ReachableBy (ClientMessage.toJs digits) config world)
    (counted : world.room.serverSeq < 2 ^ 31) (quiescent : world.Quiescent)
    (controlled : world.room.controllerId ≠ none) : world.Converged := by
  obtain ⟨sound, attended, governing⟩ := reachable.meant.coherent counted
  have linked : ∀ conn registration, IsMember world.room conn registration →
      ∃ key, world.links key = some conn := fun conn registration member =>
    quiescent.noticed conn (attended.absent conn registration member)
  obtain ⟨id, controls⟩ := Option.ne_none_iff_exists'.mp controlled
  obtain ⟨holder, registration, member, own⟩ : ∃ holder registration,
      IsMember world.room holder registration ∧ registration.id = id := by
    obtain ⟨client, listed, rfl⟩ := List.mem_map.mp (sound.valid.controllerLive id controls)
    obtain ⟨name, registered⟩ := Server.entry_registration sound.valid listed
    exact ⟨client.2, ⟨client.1, name⟩,
      ⟨registered, AssocList.lookup_of_mem sound.valid.distinctIds listed⟩, rfl⟩
  subst own
  obtain ⟨key, keyLinked⟩ := linked holder registration member
  obtain ⟨settled, governed⟩ := governing key holder registration keyLinked member controls
  have silent := quiescent.received key holder keyLinked
  -- Nothing is on its way to or from the controller: it has sent all it owes.
  obtain ⟨shows, complete⟩ : (world.apps key).component.stateManager.states = roomDecks world.room ∧
      ∀ deck, settled deck := by
    cases governed.steers with
    | granted earlier later queue calm ownId observes =>
        rw [silent] at queue
        cases earlier <;> cases queue
    | holds role calm owes covered =>
        rw [quiescent.sent holder] at owes covered
        refine ⟨?_, fun deck => ?_⟩
        · exact owes.symm.trans (Client.SyncPublisher.settle_of_idle (quiescent.published key) _)
        · rcases covered deck with done | ⟨delta, listed, _⟩
          · exact done
          · cases listed
  have image : ∀ deck, world.room.decks.lookup deck = some (roomDecks world.room deck).toDeck :=
    fun deck => toDeck_roomDecks sound.images (governed.present deck (complete deck))
  intro conn registration' joined
  by_cases same : conn = holder
  · subst same
    refine ⟨key, keyLinked, fun deck => ?_⟩
    rw [image deck, ← shows]
    rfl
  · obtain ⟨other, otherLinked⟩ := linked conn registration' joined
    refine ⟨other, otherLinked, fun deck => ?_⟩
    have tracks := governed.tracks other conn registration' otherLinked joined same
    rw [quiescent.received other conn otherLinked] at tracks
    cases tracks with
    | locked locked tracks =>
        rw [image deck, ← tracks deck (complete deck)]
        rfl
    | awaits earlier turn later queue locked tracks => cases earlier <;> cases queue

/-- Ana plays a track to Bea, who joined after she took control. -/
theorem clients_converge_evening :
    ∃ world, eveningWorld = some world ∧ world.room.clients = [(anaId, 0), (beaId, 1)] ∧
      (world.room.decks.lookup .A).map (fun deck => (deck.trackId, deck.positionSeconds)) =
        some (some (js "intro"), 25 / 2) ∧
      world.Converged := by
  obtain ⟨world, played, still, controls, clients, counted, decks⟩ := evening_played
  refine ⟨world, played, clients, by rw [decks]; rfl, ?_⟩
  refine clients_converge (ReachableBy.initial.play played) (by rw [counted]; norm_num)
    (World.quiescent_of_still played still) ?_
  rw [controls]
  exact Option.some_ne_none anaId

/-- Past the `int`s a member's client may show other decks than its room, all quiet, with
every number read as it was meant. -/
theorem clients_diverge_late :
    ∃ world, ReachableBy (ClientMessage.toJs id) party world ∧ world.Quiescent ∧
      world.room.controllerId ≠ none ∧ ¬ world.Converged := by
  have started : Solo (2 ^ 31) := solo (by norm_num)
  rw [ClientMessage.toJs_id]
  exact late_divergence started le_rfl

end DjApp.System
