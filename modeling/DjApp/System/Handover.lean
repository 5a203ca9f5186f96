import DjApp.Client.ControlLock
import DjApp.Client.Mirror
import DjApp.System.Resync

/-! A member that has only watched takes over: what its full resync does to the decks of
the room, whatever its engines made of the frames it heard. -/

set_option autoImplicit false

namespace DjApp.System

open Library
open Server (Call ConnId Frame Room RoomConfig Registration IsMember Transition framesTo framesOf
  runRoom roomTrace)
open Client (ClientMessage Decks Humble PlaybackState Player PlayerEvent Single StateDelta selfStopped)

/-!
## Decks through two codecs
-/

section Images

/-- The texts of track ids lose nothing of them. -/
theorem js_toText_trackId {units : JsString} (valid : Server.isValidTrackId units = true) :
    js units.toText = units := by
  simp only [Server.isValidTrackId, Server.matchesTrackIdPattern, Bool.and_eq_true] at valid
  have allowed := List.all_eq_true.mp valid.1.2
  have listed : ∀ char ∈ units.toText.toList, char ∈ Client.trackIdCharacters := by
    rw [Client.toList_toText_trackId allowed]
    intro char member
    obtain ⟨unit, present, rfl⟩ := List.mem_map.mp member
    exact List.contains_iff_mem.mp (Client.trackIdUnit_contains (allowed unit present))
  rw [js, Client.encode_trackId listed, Client.toList_toText_trackId allowed, List.map_map]
  refine (List.map_congr_left fun unit present => ?_).trans (List.map_id units)
  have small := Client.trackIdUnit_lt (allowed unit present)
  have codePoint : unit.toNat.isValidChar := .inl (by omega)
  simp [Utf16.toNat_toChar _ codePoint]

theorem trackIdOfText_trackIdText {trackId : Option JsString}
    (valid : ∀ id, trackId = some id → Server.isValidTrackId id = true) :
    Client.trackIdOfText (Client.trackIdText trackId) = trackId := by
  cases trackId with
  | none => rfl
  | some units =>
      have same := js_toText_trackId (valid units rfl)
      have nonempty : units.toText ≠ "" := by
        intro empty
        have bad := valid units rfl
        rw [empty] at same
        rw [← same] at bad
        exact absurd bad (by decide)
      simp [Client.trackIdText, Client.trackIdOfText, nonempty, same]

/-- A deck as it comes back from a client that has kept it, its `playing` apart: the
client has floats where the room has doubles. -/
def resynced (stopped : Bool) (deck : Server.Deck) : Server.Deck :=
  { deck with
    playing := deck.playing && !stopped
    gain := (Single.ofDouble deck.gain).value
    playbackRate := (Single.ofDouble deck.playbackRate).value
    pitchOffsetSemitones := (Single.ofDouble deck.pitchOffsetSemitones).value }

theorem toDeck_of_agrees {stopped : Bool} {state : PlaybackState} {deck : Server.Deck}
    (valid : deck.Valid) (agrees : Client.Agrees stopped state (.ofDeck deck)) :
    state.toDeck = resynced stopped deck := by
  have track := trackIdOfText_trackIdText valid.trackId
  rw [agrees]
  simp [PlaybackState.toDeck, PlaybackState.ofDeck, resynced, track, Function.comp_def,
    Client.LoopPoints.toLoop_ofLoop]

/-- The client's merge is its image of the server's assignment. -/
theorem ofDeck_assignChanges (deck : DeckId) (target : Server.Deck) (changes : Server.Changes) :
    PlaybackState.ofDeck (Server.assignChanges target changes) =
      (PlaybackState.ofDeck target).merge (.ofChanges deck changes) := by
  obtain ⟨trackId, playing, position, gain, rate, pitch, loop, repeats⟩ := changes
  cases trackId <;> cases gain <;> cases rate <;> cases pitch <;> cases loop <;> rfl

theorem receive_applyDelta (room : Room) (serverSeq : ℕ) (source : Server.ClientId) (deck : DeckId)
    (changes : Server.Changes) :
    (roomDecks room).receive (.delta serverSeq source deck changes) =
      roomDecks (Server.applyDelta room deck changes) := by
  funext other
  by_cases same : other = deck
  · subst same
    simp [roomDecks, Decks.receive, Decks.ofRoom, Server.applyDelta, Server.lookup_writeDeck,
      ofDeck_assignChanges other]
  · simp [roomDecks, Decks.receive, Decks.ofRoom, Server.applyDelta, Server.lookup_writeDeck, same]

end Images

/-!
## Members that only watch
-/

section Watching

/-- A message with which a client changes no deck and gives up no control. -/
def Quiet : ClientMessage → Prop
  | .hello _ _ | .claimControl | .requestSnapshot => True
  | .delta _ | .releaseControl => False

/-- A call of others, or a quiet message of this connection. -/
def Watching (digits : ℚ → ℚ) (conn : ConnId) (call : Call) : Prop :=
  call.conn = conn →
    ∃ message draws, Quiet message ∧ call = .message conn (message.toJs digits) draws

/-- What a connection that only watches has heard of its room. -/
structure Watched (config : RoomConfig) (conn : ConnId) (history : List Server.Entry)
    (room : Room) : Prop where
  valid : room.Valid config
  silent : room.conns conn = none → framesOf conn history = []
  live : ∀ registration, room.conns conn = some registration → IsMember room conn registration
  decks : room.conns conn ≠ none →
    (framesOf conn history).foldl Decks.receive (fun _ => {}) = roomDecks room
  humble : ∀ registration, room.conns conn = some registration →
    room.controllerId ≠ some registration.id → ∀ frame ∈ framesOf conn history,
      Humble registration.id frame

theorem foldl_receive_of_kept {frames : List Frame} {decks : Decks}
    (kept : ∀ frame ∈ frames, decks.receive frame = decks) :
    frames.foldl Decks.receive decks = decks := by
  induction frames with
  | nil => rfl
  | cons frame rest ih =>
      obtain ⟨first, others⟩ := List.forall_mem_cons.mp kept
      rw [List.foldl_cons, first]
      exact ih others

/-- A snapshot tells nothing new to those who know the decks. -/
theorem overwrite_roomDecks (room : Room) : (roomDecks room).overwrite room.decks = roomDecks room := by
  funext deck
  cases present : room.decks.lookup deck with
  | none => exact Decks.overwrite_of_not_mem _ present
  | some state => exact Decks.overwrite_of_mem _ (by simp [present])

theorem type_of_watching {digits : ℚ → ℚ} {conn : ConnId} {msg : JsValue} {draws : Server.Draws}
    (watching : Watching digits conn (.message conn msg draws)) :
    ∃ message, Quiet message ∧ Server.typeField? msg = some (js (messageTypeOf message).text) := by
  obtain ⟨message, _, quiet, same⟩ := watching rfl
  obtain ⟨-, rfl, -⟩ := Call.message.inj same
  exact ⟨message, quiet, typeField?_toJs digits message⟩

theorem not_quiet_of_type {digits : ℚ → ℚ} {conn : ConnId} {msg : JsValue} {draws : Server.Draws}
    (watching : Watching digits conn (.message conn msg draws)) {type : Server.MessageType}
    (typed : Server.typeField? msg = some (js type.text)) : type ≠ .delta ∧ type ≠ .releaseControl := by
  obtain ⟨message, quiet, named⟩ := type_of_watching watching
  have same := Server.MessageType.text_injective
    (js_injective (Option.some.inj (typed.symm.trans named)))
  subst same
  cases message with
  | hello | claimControl | requestSnapshot => exact ⟨by simp [messageTypeOf], by simp [messageTypeOf]⟩
  | delta | releaseControl => cases quiet

section Steps

variable {digits : ℚ → ℚ} {config : RoomConfig} {conn : ConnId} {history : List Server.Entry}
  {room : Room} {call : Call} {handled : Server.Handled} {registration : Registration}

/-- What a call does to the decks it says to every member but the controller, and it makes
a member the controller only on its own claim. -/
theorem heard_watching (transition : Transition config room call handled)
    (valid : room.Valid config) (watching : Watching digits conn call)
    (member : IsMember room conn registration) :
    IsMember handled.1 conn registration ∧
      (framesTo conn handled.2.effects).foldl Decks.receive (roomDecks room) =
        roomDecks handled.1 ∧
      (handled.1.controllerId ≠ some registration.id →
        room.controllerId ≠ some registration.id ∧
          ∀ frame ∈ framesTo conn handled.2.effects, Humble registration.id frame) := by
  have after := transition.valid valid
  have told : ∀ {sender : Room} {frame heard : Frame} {except : Option ConnId},
      heard ∈ framesTo conn (sender.broadcast frame except) → heard = frame := by
    intro sender frame heard except listed
    obtain ⟨_, _, _, same⟩ := Server.mem_broadcast_iff.mp (Server.mem_framesTo_iff.mp listed)
    cases same
    rfl
  cases transition with
  | idle call outcome answers noDelta =>
      refine ⟨member, foldl_receive_of_kept fun frame listed => ?_, fun other =>
        ⟨other, fun frame listed => ?_⟩⟩
      · cases answers _ (Server.mem_framesTo_iff.mp listed) with
        | error => rfl
        | snapshot => exact overwrite_roomDecks room
      · cases answers _ (Server.mem_framesTo_iff.mp listed) with
        | error | snapshot => trivial
  | join joining msg draws id name unregistered fresh free named isHello =>
      have other : joining ≠ conn := by
        rintro rfl
        rw [member.registered] at unregistered
        cases unregistered
      refine ⟨isMember_message (.join joining msg draws id name unregistered fresh free named isHello)
        member, ?_, fun other => ⟨other, ?_⟩⟩
      · rw [Server.framesTo_welcome_other other]
        apply foldl_receive_of_kept
        intro frame listed
        obtain rfl := told listed
        rfl
      · rw [Server.framesTo_welcome_other ‹joining ≠ conn›]
        intro frame listed
        obtain rfl := told listed
        trivial
  | claim calling msg draws claimant claimantMember unclaimed isClaim =>
      refine ⟨⟨member.registered, member.live⟩, foldl_receive_of_kept fun frame listed => ?_,
        fun other => ⟨by simp [unclaimed], fun frame listed => ?_⟩⟩
      · obtain rfl := told listed
        rfl
      · obtain rfl := told listed
        exact fun same => absurd (congrArg some same) other
  | release calling msg draws claimant claimantMember held isRelease =>
      refine ⟨⟨member.registered, member.live⟩, foldl_receive_of_kept fun frame listed => ?_,
        fun _ => ⟨fun controls => ?_, fun frame listed => ?_⟩⟩
      · obtain rfl := told listed
        rfl
      · have same := Option.some.inj (held.symm.trans controls)
        obtain rfl := claimantMember.conn_eq member same
        exact absurd rfl (@not_quiet_of_type _ _ _ _ watching .releaseControl isRelease).2
      · obtain rfl := told listed
        exact fun _ => rfl
  | delta calling msg draws source deck changes sourceMember held validated =>
      have elsewhere : calling ≠ conn := by
        rintro rfl
        have typed := (Server.validateDelta_ok validated).1
        exact absurd rfl (@not_quiet_of_type _ _ _ _ watching .delta typed).1
      have listed := Server.framesTo_broadcast after.distinctConns
        (.delta (room.serverSeq + 1) source.id deck changes) (some calling) conn
      rw [if_pos ⟨member.mem_conns, by simpa using Ne.symm elsewhere⟩] at listed
      refine ⟨⟨member.registered, member.live⟩, ?_, fun other => ⟨other, ?_⟩⟩
      · rw [listed]
        exact receive_applyDelta room (room.serverSeq + 1) source.id deck changes
      · rw [listed]
        exact List.forall_mem_singleton.mpr trivial
  | leave leaving departed leavingMember =>
      have elsewhere : conn ≠ leaving := by
        rintro rfl
        obtain ⟨_, _, _, same⟩ := watching rfl
        cases same
      have stays := @isMember_disconnect config _ _ _ _ elsewhere
        (.leave leaving departed leavingMember) _ member
      have unlike : registration.id ≠ departed.id := fun same =>
        elsewhere (member.conn_eq leavingMember same)
      refine ⟨stays, foldl_receive_of_kept fun frame listed => ?_, fun other =>
        ⟨fun controls => ?_, fun frame listed => ?_⟩⟩
      · obtain rfl := told listed
        rfl
      · simp [Room.remove, controls, unlike] at other
      · obtain rfl := told listed
        trivial

theorem Watched.initial : Watched config conn [] Server.createRoom where
  valid := .createRoom config
  silent _ := rfl
  live _ registered := by cases registered
  decks registered := absurd rfl registered
  humble _ registered := by cases registered

/-- The welcome shows the decks, and welcomes an observer. -/
theorem Watched.welcome (watched : Watched config conn history room)
    (unwelcomed : room.conns conn = none) {id : Server.ClientId} {name : JsString}
    (fresh : room.clients.lookup id = none)
    (after : (room.register conn id name).Valid config) :
    Watched config conn
      (history ++ [⟨room, call, (Server.welcome room conn id name).2, room.register conn id name⟩])
      (room.register conn id name) := by
  have member := isMember_register after
  have heard := Server.framesTo_welcome after.distinctConns
  have own : ∀ registration, (room.register conn id name).conns conn = some registration →
      registration = ⟨id, name⟩ := fun registration registered =>
    Option.some.inj (registered.symm.trans member.registered)
  constructor
  · exact after
  · intro absent
    rw [member.registered] at absent
    cases absent
  · intro registration registered
    obtain rfl := own registration registered
    exact member
  · intro _
    rw [Server.framesOf_concat, watched.silent unwelcomed, heard]
    change Decks.overwrite (fun _ => {}) room.decks = roomDecks room
    funext deck
    cases present : room.decks.lookup deck with
    | none =>
        rw [Decks.overwrite_of_not_mem _ present]
        exact (Decks.ofRoom_of_not_mem present).symm
    | some state => exact Decks.overwrite_of_mem _ (by simp [present])
  · intro registration registered _
    obtain rfl := own registration registered
    rw [Server.framesOf_concat, watched.silent unwelcomed, heard]
    exact List.forall_mem_singleton.mpr ⟨rfl, Server.roleOfId_fresh watched.valid fresh⟩

theorem Watched.step (watched : Watched config conn history room)
    (transition : Transition config room call handled) (watching : Watching digits conn call) :
    Watched config conn (history ++ [⟨room, call, handled.2, handled.1⟩]) handled.1 := by
  have after := transition.valid watched.valid
  cases before : room.conns conn with
  | some registration =>
      obtain ⟨member, decks, humble⟩ :=
        heard_watching transition watched.valid watching (watched.live registration before)
      have own : ∀ other, handled.1.conns conn = some other → other = registration :=
        fun other registered => Option.some.inj (registered.symm.trans member.registered)
      constructor
      · exact after
      · intro absent
        rw [member.registered] at absent
        cases absent
      · intro other registered
        obtain rfl := own other registered
        exact member
      · intro _
        rw [Server.framesOf_concat, List.foldl_append, watched.decks (by simp [before]), decks]
      · intro other registered controls
        obtain rfl := own other registered
        obtain ⟨uncontrolled, later⟩ := humble controls
        rw [Server.framesOf_concat, List.forall_mem_append]
        exact ⟨watched.humble other before uncontrolled, later⟩
  | none =>
      cases joins : handled.1.conns conn with
      | some registration =>
          obtain ⟨_, id, name, rfl, fresh⟩ := joined transition before (by simp [joins])
          exact watched.welcome before fresh after
      | none =>
          obtain ⟨_, nothing⟩ := transition.unheard watched.valid joins
          rw [Server.rowLog, List.append_eq_nil_iff, List.map_eq_nil_iff] at nothing
          constructor
          · exact after
          · intro _
            rw [Server.framesOf_concat, watched.silent before, nothing.1]
            rfl
          · intro registration registered
            rw [joins] at registered
            cases registered
          · exact fun registered => absurd joins registered
          · intro registration registered
            rw [joins] at registered
            cases registered

theorem watched_run {calls : List Call} (watching : ∀ call ∈ calls, Watching digits conn call) :
    Watched config conn (roomTrace config calls) (runRoom config calls) :=
  Machine.history_invariant_of (Room.step config) (fun row => Watching digits conn row.input)
    (Watched config conn) .initial
    (fun _ room call watched allowed =>
      watched.step (Server.step_transition config room call) allowed)
    fun _ listed => watching _ (Machine.input_mem (Room.step config) listed)

/-- A controller that only watches keeps its control, and the decks as they are. -/
theorem watching_keep (transition : Transition config room call handled)
    (watching : Watching digits conn call) (member : IsMember room conn registration)
    (controls : room.controllerId = some registration.id) (own : call.conn = conn) :
    handled.1 = room := by
  cases transition with
  | idle => rfl
  | join joining msg draws id name unregistered fresh free named isHello =>
      obtain rfl : joining = conn := own
      rw [member.registered] at unregistered
      cases unregistered
  | claim calling msg draws claimant claimantMember unclaimed isClaim =>
      rw [unclaimed] at controls
      cases controls
  | release calling msg draws claimant claimantMember held isRelease =>
      obtain rfl : calling = conn := own
      exact absurd rfl (@not_quiet_of_type _ _ _ _ watching .releaseControl isRelease).2
  | delta calling msg draws source deck changes sourceMember held validated =>
      obtain rfl : calling = conn := own
      have typed := (Server.validateDelta_ok validated).1
      exact absurd rfl (@not_quiet_of_type _ _ _ _ watching .delta typed).1
  | leave leaving departed leavingMember =>
      obtain ⟨_, _, _, same⟩ := watching own
      cases same

theorem run_watching_keep {calls : List Call} (watching : ∀ call ∈ calls, Watching digits conn call)
    (member : IsMember room conn registration)
    (controls : room.controllerId = some registration.id) :
    (Machine.run (Room.step config) room calls).decks = room.decks ∧
      IsMember (Machine.run (Room.step config) room calls) conn registration ∧
      (Machine.run (Room.step config) room calls).controllerId = some registration.id := by
  refine run_keep (fun call listed room member controls => ?_) member controls
  by_cases own : call.conn = conn
  · have transition := Server.step_transition config room call
    rw [watching_keep transition (watching call listed) member controls own]
    exact ⟨rfl, member, controls⟩
  · exact others_keep member controls own

end Steps

end Watching

/-!
## The claim and its resync
-/

section Claiming

variable {config : RoomConfig} (digits : ℚ → ℚ)

theorem framesOf_claim {conn : ConnId} {registration : Registration} {before : List Call}
    (member : IsMember (runRoom config before) conn registration)
    (unclaimed : (runRoom config before).controllerId = none) (draws : Server.Draws) :
    framesOf conn (roomTrace config
        (before ++ [.message conn (ClientMessage.toJs digits .claimControl) draws])) =
      framesOf conn (roomTrace config before) ++ [.roleChanged registration.id .controller] := by
  have claimed := step_claimControl_free config member draws unclaimed
  have valid := Server.runRoom_valid config before
  have heard := Server.framesTo_broadcast valid.distinctConns
    (.roleChanged registration.id .controller) none conn
  rw [if_pos ⟨member.mem_conns, by simp⟩] at heard
  rw [roomTrace, Machine.trace_concat, ← roomTrace, Server.framesOf_concat, ← heard]
  exact congrArg (fun answered => _ ++ framesTo conn answered.2.effects) claimed

end Claiming

/-- A client that joins with default decks and only watches, whatever tracks it has, until
it claims control and is handed its own `roleChanged`. What others do meanwhile, and what
it itself says of no deck, is arbitrary. -/
structure Handover (digits : ℚ → ℚ) (config : RoomConfig) where
  repository : Engine.AudioRepository
  outputLatencyFrames : ℚ → ℕ
  conn : ConnId
  registration : Registration
  before : List Call
  watched : ∀ call ∈ before, Watching digits conn call
  member : IsMember (runRoom config before) conn registration
  unclaimed : (runRoom config before).controllerId = none
  claimDraws : Server.Draws
  events : List PlayerEvent
  passive : ∀ event ∈ events, event.Passive
  now : ℚ
  msg : Var
  heard : Client.messagesOf (events ++ [.message now msg]) =
    (framesOf conn (roomTrace config
      (before ++ [.message conn (ClientMessage.toJs digits .claimControl) claimDraws]))).map Frame.toVar
  later : List Call
  watching : ∀ call ∈ later, Watching digits conn call
  draws : Bool → Server.Draws
  between : List Call
  others : ∀ call ∈ between, call.conn ≠ conn

namespace Handover

variable {digits : ℚ → ℚ} {config : RoomConfig} (handover : Handover digits config)

def claim : Call :=
  .message handover.conn (ClientMessage.toJs digits .claimControl) handover.claimDraws

/-- The room that the resync reaches. -/
def room : Room := runRoom config (handover.before ++ handover.claim :: handover.later)

def history : List Client.PlayerEntry :=
  Machine.trace (Player.step handover.repository handover.outputLatencyFrames) {} handover.events

def player : Player :=
  Machine.run (Player.step handover.repository handover.outputLatencyFrames) {} handover.events

/-- What the client sends on the last message. -/
def pushed : List ClientMessage :=
  (handover.player.step handover.repository handover.outputLatencyFrames
    (.message handover.now handover.msg)).2

/-- Control makes no difference to the decks, and stays with the connection that has it. -/
theorem room_controls :
    handover.room.decks = (runRoom config handover.before).decks ∧
      IsMember handover.room handover.conn handover.registration ∧
      handover.room.controllerId = some handover.registration.id := by
  have claimed := step_claimControl_free config handover.member handover.claimDraws
    handover.unclaimed
  have shape : handover.room = Machine.run (Room.step config)
      { runRoom config handover.before with controllerId := some handover.registration.id }
      handover.later := by
    rw [room, runRoom, Machine.run_append, ← runRoom, Machine.run]
    exact congrArg (fun answered => Machine.run (Room.step config) answered.1 handover.later) claimed
  rw [shape]
  exact run_watching_keep handover.watching ⟨handover.member.registered, handover.member.live⟩ rfl

/-- The client, up to the message that makes it the controller. -/
theorem watches :
    handover.msg = (Frame.roleChanged handover.registration.id .controller).toVar ∧
      Client.Watches handover.registration.id
        (framesOf handover.conn (roomTrace config handover.before)) handover.history
        handover.player := by
  have heard := handover.heard
  rw [framesOf_claim digits handover.member handover.unclaimed, List.map_append, List.map_singleton,
    Client.messagesOf_message] at heard
  obtain ⟨earlier, last⟩ := List.append_inj' heard rfl
  have watched := @watched_run digits config handover.conn _ handover.watched
  refine ⟨List.singleton_inj.mp last, Client.watches_run handover.passive earlier
    (Server.framesOf_valid config handover.conn handover.before) ?_⟩
  exact watched.humble _ handover.member.registered (by simp [handover.unclaimed])

theorem pushed_eq : handover.pushed = handover.player.app.component.pushFullResync := by
  obtain ⟨last, watches⟩ := handover.watches
  have watched := @watched_run digits config handover.conn _ handover.watched
  obtain ⟨replica, replayed, _⟩ := (Server.heard_runRoom config handover.conn
    handover.before).member _ handover.member
  have named : handover.player.app.component.ownClientId = handover.registration.id.text := by
    have known := Client.ownClientId_of_welcomed ⟨"", .observer, []⟩
      (watched.humble _ handover.member.registered (by simp [handover.unclaimed]))
      (Client.any_isWelcome replayed)
    rw [← watches.known] at known
    exact known
  have observer : handover.player.app.component.role = .observer := watches.observes.1
  have valid : (Frame.roleChanged handover.registration.id .controller).Valid config := trivial
  have dispatched := Client.dispatch_toVar handover.player.app handover.now valid
  rw [pushed, last]
  simp only [Player.step, Player.dispatch, dispatched, Client.ClientApp.replies, named, observer]
  rfl

/-- Each deck of the client is what the frames made of it, its own stops apart. -/
theorem agrees (deck : DeckId) :
    Client.Agrees (selfStopped deck handover.history)
      (handover.player.app.component.stateManager.getState deck)
      (.ofDeck ((handover.room.decks.lookup deck).getD Server.defaultDeckState)) := by
  have watched := @watched_run digits config handover.conn _ handover.watched
  have shown := handover.watches.2.decks deck
  rw [watched.decks (by simp [handover.member.registered])] at shown
  rw [handover.room_controls.1]
  exact shown

theorem deck_valid (deck : DeckId) :
    ((handover.room.decks.lookup deck).getD Server.defaultDeckState).Valid := by
  cases found : handover.room.decks.lookup deck with
  | none => exact Server.defaultDeckState_valid
  | some state =>
      exact (Server.runRoom_valid config _).decksValid _ (AssocList.mem_of_lookup found)

theorem publishable (deck : DeckId) :
    (Client.fullResyncDelta deck
      (handover.player.app.component.stateManager.getState deck)).Publishable := by
  refine Client.publishable_fullResync ?_ deck
  obtain ⟨trackId, position, gain, rate, pitch, loop⟩ :=
    Client.sound_ofDeck (handover.deck_valid deck)
  rw [handover.agrees deck]
  exact ⟨trackId, position, gain, rate, pitch, loop⟩

end Handover

/-- The deltas of a resync are accepted from the controller, whatever comes between. -/
theorem resync_accepted {config : RoomConfig} {room : Room} {conn : ConnId}
    {registration : Registration} (member : IsMember room conn registration)
    (controls : room.controllerId = some registration.id) {digits : ℚ → ℚ}
    {first second : StateDelta} (firstExact : (ClientMessage.delta first).Exact digits)
    (secondExact : (ClientMessage.delta second).Exact digits)
    (firstPublishable : first.Publishable) (secondPublishable : second.Publishable)
    {draws : Bool → Server.Draws} {between : List Call}
    (others : ∀ call ∈ between, call.conn ≠ conn) :
    ∀ row ∈ Machine.trace (Room.step config) room
      (resyncCalls digits conn (.delta first) (.delta second) draws between),
        row.input.conn = conn → row.output.result.ok = true := by
  rw [resyncCalls, ClientMessage.toJs_of_exact firstExact, ClientMessage.toJs_of_exact secondExact]
  have firstStep := step_delta_controller config member (draws false) controls firstPublishable
  have stays : IsMember (Server.applyDelta room first.deck first.toChanges) conn registration :=
    ⟨member.registered, member.live⟩
  obtain ⟨_, still, keeps⟩ := @run_others_keep config _ conn registration stays controls _ others
  have secondStep := step_delta_controller config still (draws true) keeps secondPublishable
  simp only [Machine.trace, Machine.trace_append, List.forall_mem_cons, List.forall_mem_append,
    Machine.entry, firstStep, secondStep]
  refine ⟨fun _ => trivial, fun row listed own => ?_, fun _ => trivial, by simp⟩
  exact absurd own (others _ (Machine.input_mem (Room.step config) listed))

/-- The room's deck once it has taken the two deltas of the resync. -/
def Handover.after {digits : ℚ → ℚ} {config : RoomConfig} (handover : Handover digits config)
    (first second : ClientMessage) (deck : DeckId) : Option Server.Deck :=
  (Machine.run (Room.step config) handover.room
    (resyncCalls digits handover.conn first second handover.draws handover.between)).decks.lookup deck

/-- A member that has only watched changes nothing by taking over but `playing`, on the
decks that its own engine has stopped last, and what doubles lose as floats. -/
theorem handover_keeps_decks (digits : ℚ → ℚ) (config : RoomConfig)
    (handover : Handover digits config)
    (exact : ∀ message ∈ handover.pushed, message.Exact digits) :
    ∃ first second, handover.pushed = [first, second] ∧
      ∀ deck, handover.after first second deck =
        some (resynced (selfStopped deck handover.history)
          ((handover.room.decks.lookup deck).getD Server.defaultDeckState)) := by
  obtain ⟨_, member, controls⟩ := handover.room_controls
  rw [handover.pushed_eq] at exact ⊢
  have both := exact
  rw [Client.MainComponent.pushFullResync, List.forall_mem_cons, List.forall_mem_singleton] at both
  have accepted := @resync_accepted config _ _ _ member controls digits _ _ both.1 both.2
    (handover.publishable .A) (handover.publishable .B) handover.draws _ handover.others
  refine ⟨_, _, rfl, fun deck => ?_⟩
  rw [Handover.after, decks_resync rfl exact handover.others accepted]
  exact congrArg some (toDeck_of_agrees (handover.deck_valid deck) (handover.agrees deck))

/-!
## What a handover loses
-/

section Losses

def boId : Server.ClientId := ⟨8⟩

/-- Ana watches while Bo changes decks and gives up control. -/
def boControls (changes : List Call) : List Call :=
  [.message 0 (ClientMessage.hello "Ana" "party").asJs fun _ => anaId,
    .message 1 (ClientMessage.hello "Bo" "party").asJs fun _ => boId,
    .message 1 (ClientMessage.asJs .claimControl) fun _ => boId] ++
    (changes ++ [.message 1 (ClientMessage.asJs .releaseControl) fun _ => boId])

def boPlays : List Call :=
  [.message 1 (ClientMessage.delta { deck := .A, trackId := some "bos" }).asJs fun _ => boId,
    .message 1 (ClientMessage.delta
      { deck := .A, playing := some true, positionSeconds := some 0 }).asJs fun _ => boId]

/-- A gain that is no float. -/
def fineGain : ℚ := 1 / 2 + 1 / 2 ^ 40

def boFades : List Call := [.message 1 (Server.gainMessage .A fineGain) fun _ => boId]

variable {changes : List Call}

theorem boControls_watched (bos : ∀ call ∈ changes, call.conn = 1) :
    ∀ call ∈ boControls changes, Watching Client.fifteenPlaces 0 call := by
  have hello : (ClientMessage.hello "Ana" "party").Exact Client.fifteenPlaces := by
    decide +kernel
  intro call listed own
  simp only [boControls, List.mem_append, List.mem_cons, List.not_mem_nil, or_false] at listed
  rcases listed with (rfl | rfl | rfl) | listed | rfl
  · exact ⟨.hello "Ana" "party", _, trivial, by rw [ClientMessage.toJs_of_exact hello]⟩
  · cases own
  · cases own
  · rw [bos call listed] at own
    cases own
  · cases own

/-- What Ana has heard, a block of audio and a tick of the adapter. -/
def anaWatches (changes : List Call) : List PlayerEvent :=
  (framesOf 0 (roomTrace party (boControls changes))).map (fun frame => .message 0 frame.toVar) ++
    [.block .A 10, .selfStopTick 100 .A]

/-- Ana, who has none of Bo's tracks, takes over. -/
def takesOver (bos : ∀ call ∈ changes, call.conn = 1)
    (member : IsMember (runRoom party (boControls changes)) 0 ana)
    (unclaimed : (runRoom party (boControls changes)).controllerId = none) :
    Handover Client.fifteenPlaces party where
  repository := fun _ => none
  outputLatencyFrames := fun _ => 0
  conn := 0
  registration := ana
  before := boControls changes
  watched := boControls_watched bos
  member := member
  unclaimed := unclaimed
  claimDraws := fun _ => anaId
  events := anaWatches changes
  passive := by
    intro event listed
    simp only [anaWatches, List.mem_append, List.mem_map, List.mem_cons, List.not_mem_nil,
      or_false] at listed
    rcases listed with ⟨_, _, rfl⟩ | rfl | rfl
    all_goals trivial
  now := 200
  msg := (Frame.roleChanged anaId .controller).toVar
  heard := by
    rw [framesOf_claim Client.fifteenPlaces member unclaimed, List.map_append, anaWatches]
    simp [Client.messagesOf, PlayerEvent.message?, List.filterMap_append, List.filterMap_map,
      Function.comp_def, ana]
    rfl
  later := []
  watching := by simp
  draws := fun _ _ => anaId
  between := []
  others := by simp

def missingTrack : Handover Client.fifteenPlaces party :=
  @takesOver boPlays (by decide) ⟨by decide +kernel, by decide +kernel⟩
    (by decide +kernel)

def lostGain : Handover Client.fifteenPlaces party :=
  @takesOver boFades (by decide) ⟨by decide +kernel, by decide +kernel⟩
    (by decide +kernel)

theorem handover_keeps_decks_missingTrack :
    ∃ first second, missingTrack.pushed = [first, second] ∧
      (missingTrack.after first second .A).map (·.trackId) = some (some (js "bos")) ∧
      (missingTrack.after first second .A).map (·.playing) = some false := by
  obtain ⟨first, second, pushed, decks⟩ := handover_keeps_decks Client.fifteenPlaces party
    missingTrack (by decide +kernel)
  exact ⟨first, second, pushed, by rw [decks]; decide +kernel, by rw [decks]; decide +kernel⟩

/-- A handover whose resync leaves deck A with another value of a field is no no-op there. -/
theorem not_kept_of_changed {Field : Type} (field : Server.Deck → Field)
    (handover : Handover Client.fifteenPlaces party)
    (exact : ∀ message ∈ handover.pushed, message.Exact Client.fifteenPlaces)
    (changed : field ((handover.after (resyncOf handover.player .A) (resyncOf handover.player .B)
      .A).getD Server.defaultDeckState) ≠
        field ((handover.room.decks.lookup .A).getD Server.defaultDeckState)) :
    ¬ ∀ (digits : ℚ → ℚ) (config : RoomConfig) (handover : Handover digits config),
      (∀ message ∈ handover.pushed, message.Exact digits) →
      ∃ first second, handover.pushed = [first, second] ∧ ∀ deck,
        field ((handover.after first second deck).getD Server.defaultDeckState) =
          field ((handover.room.decks.lookup deck).getD Server.defaultDeckState) := by
  intro noop
  obtain ⟨first, second, pushed, unchanged⟩ := noop _ party handover exact
  obtain ⟨rfl, rest⟩ := List.cons.inj (handover.pushed_eq.symm.trans pushed)
  obtain ⟨rfl, _⟩ := List.cons.inj rest
  exact changed (unchanged .A)

/-- The track that Ana lacks is stopped for everyone, and a gain that is no float is
another one. -/
theorem handover_not_noop :
    (¬ ∀ (digits : ℚ → ℚ) (config : RoomConfig) (handover : Handover digits config),
      (∀ message ∈ handover.pushed, message.Exact digits) →
      ∃ first second, handover.pushed = [first, second] ∧ ∀ deck,
        ((handover.after first second deck).getD Server.defaultDeckState).playing =
          ((handover.room.decks.lookup deck).getD Server.defaultDeckState).playing) ∧
    ¬ ∀ (digits : ℚ → ℚ) (config : RoomConfig) (handover : Handover digits config),
      (∀ message ∈ handover.pushed, message.Exact digits) →
      ∃ first second, handover.pushed = [first, second] ∧ ∀ deck,
        ((handover.after first second deck).getD Server.defaultDeckState).gain =
          ((handover.room.decks.lookup deck).getD Server.defaultDeckState).gain := by
  constructor
  · exact not_kept_of_changed (·.playing) missingTrack (by decide +kernel) (by decide +kernel)
  · exact not_kept_of_changed (·.gain) lostGain (by decide +kernel) (by decide +kernel)

end Losses

end DjApp.System
