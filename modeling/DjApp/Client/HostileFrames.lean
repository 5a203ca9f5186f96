import DjApp.Client.CodecProperties
import DjApp.Client.SnapshotRequests
import DjApp.Client.SoundStates

/-! A server that sends what it likes. The client's decks stay as a room would have them, its
list of peers stays small, and what it publishes is accepted all the same. -/

set_option autoImplicit false

namespace DjApp.Client

open Library

/-!
## Track names off the wire
-/

section Names

theorem namesTrack_parseDeltaMessage {msg : Var} {delta : StateDelta}
    (parsed : parseDeltaMessage msg = .ok delta) : delta.NamesTrack := by
  cases msg with
  | obj fields =>
      obtain ⟨_, _, _, _, _, _, read⟩ := parseDeltaMessage_ok_iff.mp parsed
      exact read.encodes.trackId
  | null | bool | num | str | arr => cases parsed

theorem namesTrack_playbackStateFromVar {v : Var} {state : PlaybackState}
    (parsed : playbackStateFromVar v = .ok state) (deck : DeckId) :
    (fullResyncDelta deck state.clamp).NamesTrack := by
  cases v with
  | obj fields =>
      unfold playbackStateFromVar at parsed
      dsimp only at parsed
      split at parsed
      · cases parsed
      · obtain ⟨read, fieldsParsed, same⟩ := bind_eq_ok_iff.mp parsed
        cases same
        rintro text ⟨⟩
        have encodes := (parseFields_ok_iff.mp fieldsParsed).2.encodes.trackId
        cases named : read.trackId with
        | none => exact .inl rfl
        | some trackId => exact encodes trackId named
  | null | bool | num | str | arr => cases parsed

/-- A callback whose delta, if it has one, names a valid track. -/
def Callback.NamesTrack : Callback → Prop
  | .remoteDelta delta => delta.NamesTrack
  | .connectionLost _ | .welcome _ | .serverEvent _ => True

end Names

/-!
## The list of peers
-/

section Peers

/-- The peers as the panel may list them. -/
structure PeersListed (peers : List PeerInfo) : Prop where
  bounded : peers.length ≤ kMaxPeers
  distinct : (peers.map (·.clientId)).Nodup
  named : ∀ peer ∈ peers, isValidPeerName peer.name = true

variable {peers : List PeerInfo}

theorem PeersListed.nil : PeersListed [] := ⟨by decide, List.nodup_nil, by simp⟩

theorem map_clientId_updatePeer (peers : List PeerInfo) (peer : PeerInfo) :
    (updatePeer peers peer).map (·.clientId) = peers.map (·.clientId) := by
  induction peers with
  | nil => rfl
  | cons existing rest ih =>
      rw [updatePeer]
      split
      · rename_i same
        simp [same]
      · simp [ih]

theorem mem_updatePeer {peer other : PeerInfo} (member : other ∈ updatePeer peers peer) :
    other = peer ∨ other ∈ peers := by
  induction peers with
  | nil => cases member
  | cons existing rest ih =>
      rw [updatePeer] at member
      split at member
      · rcases List.mem_cons.mp member with new | old
        · exact .inl new
        · exact .inr (List.mem_cons_of_mem _ old)
      · rcases List.mem_cons.mp member with rfl | later
        · exact .inr List.mem_cons_self
        · exact (ih later).imp id (List.mem_cons_of_mem _)

/-- The ids stay, and so do the names. -/
theorem PeersListed.congr {others : List PeerInfo} (listed : PeersListed peers)
    (ids : others.map (·.clientId) = peers.map (·.clientId))
    (named : ∀ peer ∈ others, isValidPeerName peer.name = true) : PeersListed others := by
  have length : others.length = peers.length := by
    simpa using congrArg List.length ids
  exact ⟨length ▸ listed.bounded, ids ▸ listed.distinct, named⟩

theorem PeersListed.addOrUpdatePeer (listed : PeersListed peers) (peer : PeerInfo) :
    PeersListed (addOrUpdatePeer peers peer) := by
  unfold Client.addOrUpdatePeer
  split
  · exact listed
  rename_i named
  simp only [Bool.not_eq_true', Bool.not_eq_false] at named
  split
  · apply listed.congr (map_clientId_updatePeer peers peer)
    intro other member
    rcases mem_updatePeer member with rfl | old
    · exact named
    · exact listed.named other old
  rename_i fresh
  split
  · exact listed
  rename_i room
  refine ⟨by simpa [Nat.succ_le_iff] using room, ?_, ?_⟩
  · have absent : peer.clientId ∉ peers.map (·.clientId) := by
      simpa using fresh
    rw [List.map_append]
    exact List.nodup_append.mpr ⟨listed.distinct, by simp, by
      rintro id member other ⟨⟩ rfl
      · exact absent member
      · rename_i impossible
        cases impossible⟩
  · intro other member
    rcases List.mem_append.mp member with old | new
    · exact listed.named other old
    · rw [List.mem_singleton.mp new]
      exact named

theorem PeersListed.setPeerRole (listed : PeersListed peers) (clientId : String) (role : Role) :
    PeersListed (setPeerRole peers clientId role) := by
  apply listed.congr
  · rw [Client.setPeerRole, List.map_map]
    apply List.map_congr_left
    intro peer _
    dsimp only [Function.comp_apply]
    split <;> rfl
  · intro other member
    obtain ⟨peer, old, rfl⟩ := List.mem_map.mp member
    have named := listed.named peer old
    split <;> exact named

theorem PeersListed.filter (listed : PeersListed peers) (keep : PeerInfo → Bool) :
    PeersListed (peers.filter keep) where
  bounded := (List.length_filter_le ..).trans listed.bounded
  distinct := listed.distinct.sublist (List.filter_sublist.map _)
  named peer member := listed.named peer (List.mem_of_mem_filter member)

theorem listed_welcomePeers (varToString : Var → String) (v : Var) :
    PeersListed (MainComponent.welcomePeers varToString v) := by
  cases v with
  | arr entries =>
      unfold MainComponent.welcomePeers
      suffices grows : ∀ peers, PeersListed peers → PeersListed (entries.foldl _ peers) from
        grows [] .nil
      induction entries with
      | nil => exact fun peers listed => listed
      | cons entry rest ih =>
          intro peers listed
          rw [List.foldl_cons]
          apply ih
          split
          · split
            · exact listed.addOrUpdatePeer _
            · exact listed
          · exact listed
  | null | bool | num | str | obj => exact .nil

end Peers

/-!
## The component
-/

/-- What no frame can take from the component. -/
structure MainComponent.Contained (component : MainComponent) : Prop where
  states : ∀ deck, (component.stateManager.getState deck).Sound
  pending : component.syncPublisher.Publishable
  peers : PeersListed component.peers

/-- The component is contained, and a room takes all that it has sent. -/
structure Contains (done : MainComponent × List ClientMessage) : Prop where
  contained : done.1.Contained
  sent : ∀ message ∈ done.2, message.Publishable

/-- A change leaves the deck with a valid state, whoever it comes from. -/
theorem sound_merge_prepare {manager : StateManager} {delta : StateDelta}
    (sound : (manager.getState delta.deck).Sound) (present : delta.empty = false)
    (named : delta.NamesTrack) (source : DeltaSource) :
    ((manager.getState delta.deck).merge (manager.prepare delta source)).Sound := by
  have own := sound_merge sound (publishable_prepare sound present named).valid
  cases source with
  | own => exact own
  | remote =>
      -- The stored position, which an own delta takes along, is what the merge keeps anyway.
      have same : (manager.getState delta.deck).merge (manager.prepare delta .remote) =
          (manager.getState delta.deck).merge (manager.prepare delta .own) := by
        by_cases starts : delta.clamp.playing = some true ∧ delta.clamp.positionSeconds = none
        · simp [StateManager.prepare, StateDelta.withPosition, starts, PlaybackState.merge]
        · simp only [StateManager.prepare, StateDelta.withPosition, starts, and_false, ↓reduceIte]
      rw [same]
      exact own

namespace MainComponent.Contained

variable {component : MainComponent} (contained : component.Contained) (now : ℚ)

theorem initial (varToString : Var → String) : Contained { varToString := varToString } where
  states := fun _ => sound_default
  pending := by
    intro deck delta pending
    cases pending
  peers := .nil

include contained

theorem still : Contains (component, []) := ⟨contained, by simp⟩

theorem applyDelta {delta : StateDelta} (named : delta.NamesTrack) (source : DeltaSource) :
    Contains (component.applyDelta now delta source) := by
  cases empty : delta.empty with
  | true =>
      rw [MainComponent.applyDelta_empty _ now _ empty]
      exact contained.still
  | false =>
      have merged := sound_merge_prepare (contained.states delta.deck) empty named source
      have states : ∀ deck, (Function.update component.stateManager.states delta.deck
          ((component.stateManager.getState delta.deck).merge
            (component.stateManager.prepare delta source)) deck).Sound := by
        intro deck
        rw [Function.update_apply]
        split
        · exact merged
        · exact contained.states deck
      simp only [MainComponent.applyDelta, StateManager.applyDelta, empty, Bool.false_eq_true,
        ↓reduceIte]
      cases source with
      | remote =>
          exact ⟨⟨states, contained.pending, contained.peers⟩, by simp [SyncPublisher.notify]⟩
      | own =>
          have told := SyncPublisher.tell_publishable contained.pending now
            (publishable_prepare (contained.states delta.deck) empty named)
          rw [SyncPublisher.notify_own]
          refine ⟨⟨states, told.pending, contained.peers⟩, fun message member => ?_⟩
          obtain ⟨sent, listed, rfl⟩ := List.mem_map.mp member
          exact told.sent sent listed

theorem publisherTick : Contains (component.publisherTick now) := by
  have flushed := SyncPublisher.timerCallback_publishable contained.pending now
  refine ⟨⟨contained.states, flushed.pending, contained.peers⟩, fun message member => ?_⟩
  obtain ⟨delta, sent, rfl⟩ := List.mem_map.mp member
  exact flushed.sent delta sent

theorem applySnapshotDeck (decks : Properties) (deck : DeckId) :
    Contains (component.applySnapshotDeck now decks deck) := by
  unfold MainComponent.applySnapshotDeck MainComponent.applyDeckSnapshot
  split
  · exact contained.still
  · split
    · exact contained.still
    · rename_i parsed
      exact contained.applyDelta now (namesTrack_playbackStateFromVar parsed deck) .remote

theorem applySnapshot (decks : Var) : Contains (component.applySnapshot now decks) := by
  unfold MainComponent.applySnapshot
  split
  · rename_i fields
    have first := contained.applySnapshotDeck now fields .A
    have second := first.contained.applySnapshotDeck now fields .B
    refine ⟨second.contained, fun message member => ?_⟩
    rcases List.mem_append.mp member with earlier | later
    · exact first.sent message earlier
    · exact second.sent message later
  · exact contained.still

theorem handleConnectionChange (connected : Bool) :
    (component.handleConnectionChange connected).Contained := by
  unfold MainComponent.handleConnectionChange
  cases connected with
  | true => exact ⟨contained.states, contained.pending, contained.peers⟩
  | false => exact ⟨contained.states, contained.pending, .nil⟩

theorem pushFullResync : ∀ message ∈ component.pushFullResync, message.Publishable := by
  simp only [MainComponent.pushFullResync, List.forall_mem_cons]
  exact ⟨publishable_fullResync (contained.states .A) .A,
    publishable_fullResync (contained.states .B) .B, by simp⟩

theorem handleWelcome (welcome : Var) : Contains (component.handleWelcome now welcome) := by
  unfold MainComponent.handleWelcome
  split
  · rename_i fields
    dsimp only [MainComponent.applyRoleToUI]
    have titled : Contained { component with
        ownClientId := propertyString component.varToString fields "clientId"
        role := roleFromWireString (propertyString component.varToString fields "role") } :=
      ⟨contained.states, contained.pending, contained.peers⟩
    have listed := listed_welcomePeers component.varToString (getProperty fields "peers")
    split
    · rename_i snapshot _
      have applied := titled.applySnapshot now (getProperty snapshot "decks")
      exact ⟨⟨applied.contained.states, applied.contained.pending, listed⟩, applied.sent⟩
    · exact ⟨⟨contained.states, contained.pending, listed⟩, by simp⟩
  · exact contained.still

theorem handleRoleChanged (clientId : String) (role : Role) :
    Contains (component.handleRoleChanged clientId role) := by
  unfold MainComponent.handleRoleChanged
  split
  · refine ⟨⟨contained.states, contained.pending, contained.peers⟩, ?_⟩
    dsimp only
    split
    · exact contained.pushFullResync
    · simp
  · have listed := contained.peers.setPeerRole clientId role
    exact ⟨⟨contained.states, contained.pending, listed⟩, by simp⟩

theorem handleServerEvent (msg : Var) : Contains (component.handleServerEvent now msg) := by
  unfold MainComponent.handleServerEvent
  split
  · split
    · exact contained.applySnapshot now _
    · exact contained.handleRoleChanged _ _
    · split
      · exact ⟨⟨contained.states, contained.pending, contained.peers.addOrUpdatePeer _⟩, by simp⟩
      · exact contained.still
    · exact ⟨⟨contained.states, contained.pending, contained.peers.filter _⟩, by simp⟩
    · exact contained.still
  · exact contained.still

theorem perform {callback : Callback} (named : callback.NamesTrack) :
    Contains (component.perform now callback) := by
  cases callback with
  | connectionLost reason =>
      exact ⟨contained.handleConnectionChange false, by simp [MainComponent.perform]⟩
  | welcome parsed => exact (contained.handleConnectionChange true).handleWelcome now parsed
  | remoteDelta delta => exact contained.applyDelta now named .remote
  | serverEvent msg => exact contained.handleServerEvent now msg

end MainComponent.Contained

/-!
## The two threads
-/

/-- The tracks that the user loads have valid ids. -/
def MessageEvent.NamesTrack : MessageEvent → Prop
  | .edit _ delta => delta.NamesTrack
  | .connectButton _ _ | .claimButton | .callback _ | .tick _ => True

def ThreadEvent.NamesTrack : ThreadEvent → Prop
  | .message event => event.NamesTrack
  | .network _ | .socketStopped => True

/-- What no frame can take from the client, with what it is still to hear and to say. -/
structure ClientThreads.Held (threads : ClientThreads) : Prop where
  component : threads.component.Contained
  queued : ∀ entry ∈ threads.queue, entry.2.NamesTrack
  hello : ∀ message ∈ threads.impl.hello.toList, message.Publishable

/-- The client is held, and a room takes all that it has sent. -/
structure Holds (ran : ThreadsRan) : Prop where
  held : ran.1.Held
  sent : ∀ message ∈ sentMessages ran.2, message.Publishable

namespace Holds

variable {ran : ThreadsRan} {threads : ClientThreads}

theorem andThen {next : ClientThreads → ThreadsRan} (first : Holds ran)
    (second : ran.1.Held → Holds (next ran.1)) : Holds (ran.andThen next) := by
  have after := second first.held
  refine ⟨after.held, fun message member => ?_⟩
  rw [ThreadsRan.andThen, sentMessages_append] at member
  rcases List.mem_append.mp member with earlier | later
  · exact first.sent message earlier
  · exact after.sent message later

end Holds

namespace ClientThreads.Held

variable {threads : ClientThreads} (held : threads.Held)

theorem initial (varToString : Var → String) : Held (.started varToString) where
  component := .initial varToString
  queued := by simp [ClientThreads.started]
  hello := by simp [ClientThreads.started]

include held

theorem silent {actions : List ThreadAction} (silent : sentMessages actions = []) :
    Holds (threads, actions) :=
  ⟨held, by simp [silent]⟩

theorem logOnce (guard : LogGuard) (bytes : ℕ) : Holds (threads.logOnce guard bytes) := by
  unfold ClientThreads.logOnce
  split
  · exact held.silent rfl
  · exact ⟨⟨held.component, held.queued, held.hello⟩, by simp [sentMessages]⟩

theorem marshal {callback : Callback} (named : callback.NamesTrack) :
    Holds (threads.marshal callback) := by
  refine ⟨⟨held.component, ?_, held.hello⟩, by simp [ClientThreads.marshal, sentMessages]⟩
  intro entry member
  rcases List.mem_append.mp member with old | new
  · exact held.queued entry old
  · rw [List.mem_singleton.mp new]
    exact named

theorem noteSeq (msg : Var) : (threads.noteSeq msg).Held :=
  ⟨held.component, held.queued, held.hello⟩

theorem allocate : threads.allocate.Held := ⟨held.component, held.queued, held.hello⟩

theorem stop : threads.stop.Held := ⟨held.component, held.queued, held.hello⟩

theorem popped {entry : Option AliveFlag × Callback} {rest : List (Option AliveFlag × Callback)}
    (shape : threads.queue = entry :: rest) : Held { threads with queue := rest } :=
  ⟨held.component, fun other member => held.queued other (shape ▸ List.mem_cons_of_mem _ member),
    held.hello⟩

variable (measure : ClientThreads.Measure)

theorem sendMessage {message : ClientMessage} (publishable : message.Publishable) :
    Holds (threads.sendMessage measure message) := by
  unfold ClientThreads.sendMessage
  split
  · exact held.logOnce _ _
  · refine ⟨held, ?_⟩
    dsimp only
    split
    · simpa [sentMessages] using publishable
    · simp [sentMessages]

theorem sendAll {messages : List ClientMessage}
    (publishable : ∀ message ∈ messages, message.Publishable) :
    Holds (threads.sendAll measure messages) := by
  induction messages generalizing threads with
  | nil => exact held.silent rfl
  | cons message rest ih =>
      obtain ⟨first, others⟩ := List.forall_mem_cons.mp publishable
      exact (held.sendMessage measure first).andThen fun next => ih next others

theorem act {done : MainComponent × List ClientMessage} (contains : Contains done) :
    Holds (threads.act measure done) := by
  have acted : Held { threads with component := done.1 } :=
    ⟨contains.contained, held.queued, held.hello⟩
  exact acted.sendAll measure contains.sent

theorem dispatch (msg : Var) (frameBytes : ℕ) : Holds (threads.dispatch measure msg frameBytes) := by
  unfold ClientThreads.dispatch
  split
  · exact (held.noteSeq msg).marshal trivial
  · split
    · exact held.logOnce _ _
    · rename_i delta parsed
      have asked : Holds (threads.sendAll measure
          (if ClientApp.needsSnapshot threads.impl.lastSeenServerSeq (messageServerSeq msg)
            then [.requestSnapshot] else [])) := by
        apply held.sendAll measure
        split <;> simp [ClientMessage.Publishable]
      apply asked.andThen
      intro next
      have named : delta.NamesTrack := namesTrack_parseDeltaMessage parsed
      exact (next.noteSeq msg).marshal named
  · exact (held.noteSeq msg).marshal trivial
  · exact held.marshal trivial
  · exact held.marshal trivial
  · exact held.marshal trivial
  · exact held.marshal trivial
  · exact held.logOnce _ _

theorem handleMessage (frame : InboundFrame) : Holds (threads.handleMessage measure frame) := by
  unfold ClientThreads.handleMessage
  split
  · exact held.logOnce _ _
  · split
    · exact held.logOnce _ _
    · split
      · exact held.dispatch measure _ _
      · exact held.logOnce _ _

theorem networkStep (event : NetworkEvent) : Holds (threads.networkStep measure event) := by
  cases event with
  | opened => exact held.sendAll measure held.hello
  | message frame => exact held.handleMessage measure frame
  | closed code => exact held.marshal trivial
  | error => exact held.marshal trivial

theorem runCallback (now : ℚ) : Holds (threads.runCallback measure now) := by
  unfold ClientThreads.runCallback
  split
  · exact held.silent rfl
  · exact held.silent rfl
  · rename_i flag callback rest shape
    have popped := held.popped shape
    have named : callback.NamesTrack := held.queued (some flag, callback) (by simp [shape])
    dsimp only
    split
    · apply (popped.silent rfl).andThen
      intro next
      exact next.act measure (held.component.perform now named)
    · exact popped.silent rfl

theorem messageStep {event : MessageEvent} (allowed : event.NamesTrack) :
    Holds (threads.messageStep measure event) := by
  cases event with
  | connectButton name room =>
      exact ⟨⟨held.component, held.queued, held.hello⟩, by
        simp [sentMessages, ClientThreads.messageStep]⟩
  | claimButton =>
      unfold ClientThreads.messageStep
      dsimp only
      split
      · apply held.sendMessage measure
        split <;> trivial
      · exact held.silent rfl
  | callback now => exact held.runCallback measure now
  | edit now delta => exact held.act measure (held.component.applyDelta now allowed .own)
  | tick now => exact held.act measure (held.component.publisherTick now)

theorem connect (name room : String) : Holds (threads.connect name room) := by
  unfold ClientThreads.connect
  split
  · exact held.allocate.marshal trivial
  · refine ⟨⟨held.component, held.queued, ?_⟩, by simp [sentMessages]⟩
    simp [ClientMessage.Publishable]

theorem resume (next : Teardown) : Holds (threads.resume next) := by
  cases next with
  | connect name room => exact held.connect name room
  | disconnect =>
      exact ⟨⟨held.component.handleConnectionChange false, held.queued, held.hello⟩, by
        simp [sentMessages, ClientThreads.resume]⟩

theorem step {event : ThreadEvent} (allowed : event.NamesTrack) :
    Holds (threads.step measure event) := by
  cases event with
  | network event =>
      unfold ClientThreads.step
      dsimp only
      split
      · exact held.networkStep measure event
      · exact held.silent rfl
  | message event =>
      unfold ClientThreads.step
      dsimp only
      split
      · exact held.messageStep measure allowed
      · exact held.silent rfl
  | socketStopped =>
      unfold ClientThreads.step
      dsimp only
      split
      · exact held.silent rfl
      · exact held.stop.resume _

end ClientThreads.Held

/-!
## Whole runs
-/

section Runs

variable (varToString : Var → String) (measure : ClientThreads.Measure) {events : List ThreadEvent}

theorem held_run (tracks : ∀ event ∈ events, event.NamesTrack) :
    (threadsAfter varToString measure events).Held := by
  induction events using List.reverseRecOn with
  | nil => exact .initial varToString
  | append_singleton events event ih =>
      obtain ⟨earlier, last⟩ := List.forall_mem_append.mp tracks
      rw [threadsAfter, Machine.run_concat]
      exact ((ih earlier).step measure (last event (List.mem_singleton_self event))).held

/-- Whatever the server sends, and however the two threads interleave, every delta that the
client publishes is one a room accepts as it is, if its digits stand for its numbers; its decks
hold values in range, and its list of peers is one a room could have. -/
theorem hostile_frames_contained (tracks : ∀ event ∈ events, event.NamesTrack) :
    (∀ row ∈ threadsTrace varToString measure events,
      ∀ delta, .delta delta ∈ sentMessages row.output →
        ∀ digits, (ClientMessage.delta delta).Exact digits →
          Server.validateDelta ((ClientMessage.delta delta).toJs digits) =
            .ok (delta.deck, delta.toChanges)) ∧
      (∀ deck, ((threadsAfter varToString measure
        events).component.stateManager.getState deck).toDeck.Valid) ∧
      PeersListed (threadsAfter varToString measure events).component.peers := by
  have held := held_run varToString measure tracks
  refine ⟨fun row member delta sent digits exact => ?_, held.component.states,
    held.component.peers⟩
  obtain ⟨earlier, later, rfl, shape⟩ := Machine.mem_trace _ member
  obtain ⟨before, rest⟩ := List.forall_mem_append.mp tracks
  have steps := (held_run varToString measure before).step measure
    (rest row.input List.mem_cons_self)
  rw [shape] at sent
  have publishable : delta.Publishable := steps.sent (.delta delta) sent
  rw [ClientMessage.toJs_of_exact exact]
  exact validateDelta_buildDelta publishable.present publishable.valid

/-- A welcome with a number for an id, values out of range and a peer whose role is none. -/
def plantedWelcome : InboundFrame :=
  ⟨false, 400, some (.obj [("type", .str "welcome"), ("clientId", .number 7),
    ("role", .str "controller"),
    ("snapshot", .obj [("decks", .obj [("A", .obj [("trackId", .str "t1"), ("gain", .number 9)])])]),
    ("peers", .arr [.obj [("clientId", .str "7"), ("name", .str "Bo"), ("role", .null)]])])⟩

def plantedSession : List ThreadEvent :=
  [.message (.connectButton "Ana" "party"), .socketStopped, .network .opened,
    .network (.message plantedWelcome), .message (.callback 1),
    .message (.edit 2 { deck := .A, playing := some true })]

/-- What JUCE shows of a seven, and of a value that is void. -/
def sevenOrVoid : Var → String
  | .num _ => "7"
  | _ => ""

theorem hostile_frames_contained_planted :
    let after := threadsAfter sevenOrVoid (fun _ => 26) plantedSession
    let published : StateDelta := { deck := .A, playing := some true, positionSeconds := some 0 }
    after.component.ownClientId = "7" ∧ after.component.role = .controller ∧
      ((threadsTrace sevenOrVoid (fun _ => 26) plantedSession).flatMap fun row =>
        sentMessages row.output) = [.hello "Ana" "party", .delta published] ∧
      Server.validateDelta ((ClientMessage.delta published).toJs fifteenPlaces) =
        .ok (published.deck, published.toChanges) ∧
      (∀ deck, (after.component.stateManager.getState deck).toDeck.Valid) ∧
      (after.component.stateManager.getState .A).gain = .ofDouble 2 ∧
      PeersListed after.component.peers := by
  intro after published
  have tracks : ∀ event ∈ plantedSession, event.NamesTrack := by
    simp [plantedSession, ThreadEvent.NamesTrack, MessageEvent.NamesTrack, StateDelta.NamesTrack]
  obtain ⟨accepted, valid, listed⟩ :=
    hostile_frames_contained sevenOrVoid (fun _ => 26) tracks
  have last : (threadsTrace sevenOrVoid (fun _ => 26) plantedSession).getLast? = some
      (Machine.entry (ClientThreads.step fun _ => 26)
        (threadsAfter sevenOrVoid (fun _ => 26) plantedSession.dropLast)
        (.message (.edit 2 { deck := .A, playing := some true }))) :=
    congrArg List.getLast? (Machine.trace_concat (ClientThreads.step fun _ => 26)
      (.started sevenOrVoid) plantedSession.dropLast _) |>.trans List.getLast?_concat
  have sent := accepted _ (List.mem_of_getLast? last) published (by decide +kernel)
    fifteenPlaces (by decide +kernel)
  exact ⟨by decide +kernel, by decide +kernel, by decide +kernel, sent, valid, by decide +kernel,
    listed⟩

end Runs

end DjApp.Client
