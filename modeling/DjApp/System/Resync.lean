import DjApp.Client.AcceptedChanges
import DjApp.Client.PlayerProperties
import DjApp.System.LongRun
import DjApp.System.Serving

/-! The full resync of a client that has become controller: what the room shows once it
has accepted the two deltas, and how that compares with what the client plays. -/

set_option autoImplicit false

namespace DjApp.System

open Library
open Server (Call ConnId MessageType Room RoomConfig Registration IsMember)
open Client (ClientMessage PlaybackState Player PlayerEvent StateDelta)

section Accepting

theorem validateField_asJs_eq {Source Value : Type} {fields : Server.Fields} {key : String}
    {source : Option Source} {encode : Source → JsValue} {decode : Source → Value}
    {validate : JsValue → Except String Value} {accepted : Option Value}
    (validated : Server.validateField fields key validate = .ok accepted)
    (found : fields.lookup (js key) = source.map encode)
    (agree : ∀ x value, validate (encode x) = .ok value → value = decode x) :
    accepted = source.map decode := by
  unfold Server.validateField at validated
  rw [found] at validated
  cases source with
  | none =>
      cases validated
      rfl
  | some x =>
      simp only [Option.map_some] at validated
      cases checked : validate (encode x) with
      | error reason => simp [checked, Except.map] at validated
      | ok value =>
          simp only [checked, Except.map, Except.ok.injEq] at validated
          rw [← validated, agree x value checked, Option.map_some]

theorem eq_trackIdOfText {text : String} {trackId : Option JsString}
    (validated : Server.validateTrackId (Client.trackIdToVar text).asJs = .ok trackId) :
    trackId = Client.trackIdOfText text := by
  unfold Client.trackIdToVar at validated
  unfold Client.trackIdOfText
  by_cases empty : text = ""
  · simp only [empty, ↓reduceIte, asJs_null, Server.validateTrackId, Except.ok.injEq] at validated ⊢
    exact validated.symm
  · simp only [empty, ↓reduceIte, asJs_str, Server.validateTrackId] at validated ⊢
    split at validated
    · cases validated
      rfl
    · cases validated

theorem eq_map_toLoop {loop : Option Client.LoopPoints} {accepted : Option Server.Loop}
    (validated : Server.validateLoop (Client.loopToVar loop).asJs = .ok accepted) :
    accepted = loop.map Client.LoopPoints.toLoop := by
  cases loop with
  | none =>
      simp only [Client.loopToVar, asJs_null, Server.validateLoop, Except.ok.injEq] at validated
      exact validated.symm
  | some points =>
      have read := Client.loopOf_validateLoop validated
      cases accepted with
      | none =>
          simp [Client.loopToVar, Client.loopOf] at read
      | some accepted =>
          simp [Client.loopToVar, Client.loopOf, List.lookup_cons, Json.number,
            Client.numberOf, Client.LoopPoints.ofLoop] at read
          cases accepted
          simp_all [Client.LoopPoints.toLoop]

/-- The check of a client's delta never changes a value. -/
theorem toChanges_of_checked {fields : Server.Fields} {delta : StateDelta} {changes : Server.Changes}
    (checked : Server.KnownChangesChecked fields changes)
    (found : ∀ key ∈ Client.stateKeys,
      fields.lookup (js key) = ((Client.deltaFields delta).lookup key).map Var.asJs) :
    changes = delta.toChanges := by
  simp only [Client.stateKeys, List.forall_mem_cons, Client.deltaFields, List.lookup_append,
    AssocList.lookup_toList_map, String.reduceEq, ↓reduceIte, Option.none_or, Option.or_none,
    Option.map_map] at found
  obtain ⟨trackId, playing, positionSeconds, gain, playbackRate, pitchOffsetSemitones, loop,
    repeats, _⟩ := found
  have number {Source : Type} {accepted : Option ℚ} {name key : String} {range : Server.Range}
      {source : Option Source} {value : Source → ℚ}
      (validated : Server.validateField fields key (Server.validateNumericField name range) =
        .ok accepted)
      (found : fields.lookup (js key) =
        source.map (Var.asJs ∘ fun x => Json.number (value x))) :
      accepted = source.map value :=
    validateField_asJs_eq validated found fun x read accepted => by
      have same := Client.numberOf_validateNumericField accepted
      rw [Function.comp_apply, asJs_number] at same
      exact same
  have truth {accepted source : Option Bool} {name key : String}
      (validated : Server.validateField fields key (Server.validateBoolean name) = .ok accepted)
      (found : fields.lookup (js key) = source.map (Var.asJs ∘ Json.bool)) :
      accepted = source := by
    have read : accepted = source.map id :=
      validateField_asJs_eq validated found fun x value accepted => by
        have same := Client.boolOf_validateBoolean accepted
        rw [Function.comp_apply, asJs_bool] at same
        exact same
    rw [read, Option.map_id]
    rfl
  have track := validateField_asJs_eq checked.trackId trackId
    fun text value accepted => eq_trackIdOfText accepted
  have looped := validateField_asJs_eq checked.loop loop
    fun points value accepted => eq_map_toLoop accepted
  have positioned : changes.positionSeconds = delta.positionSeconds.map id :=
    number checked.positionSeconds positionSeconds
  obtain ⟨⟩ := changes
  simp only [StateDelta.toChanges, Server.Changes.mk.injEq]
  exact ⟨track, truth checked.playing playing, positioned.trans (by rw [Option.map_id]; rfl),
    number checked.gain gain, number checked.playbackRate playbackRate,
    number checked.pitchOffsetSemitones pitchOffsetSemitones, looped,
    truth checked.repeats repeats⟩

/-- A delta of the client that passes the check is applied as it was sent. -/
theorem validated_delta_eq {delta : StateDelta} {deck : DeckId} {changes : Server.Changes}
    (validated : Server.validateDelta (ClientMessage.delta delta).asJs = .ok (deck, changes)) :
    deck = delta.deck ∧ changes = delta.toChanges := by
  have shape : Server.validateDelta (ClientMessage.delta delta).asJs =
      (Server.validateChanges (Var.asJs (.obj (Client.deltaFields delta)))).bind fun changes =>
        .ok (delta.deck, changes) := by
    rw [asJs_delta, Client.buildDelta_eq, asJs_obj]
    simp [Server.validateDelta, Server.hasExactKeys, Server.hasField, List.lookup_cons]
    rfl
  rw [shape] at validated
  obtain ⟨accepted, checks, same⟩ := bind_eq_ok_iff.mp validated
  obtain ⟨rfl, rfl⟩ := Prod.mk.inj (Except.ok.inj same)
  obtain ⟨fields, given, checked⟩ := Client.validateChanges_ok_fields checks
  rw [asJs_obj] at given
  cases given
  exact ⟨rfl, toChanges_of_checked checked fun key _ => Client.lookup_asJs _ key⟩

end Accepting

section Calls

variable {config : RoomConfig} {room : Room} {call : Call} {conn : ConnId}
  {registration : Registration}

/-- While a connection has control, nobody else's call takes it away or moves a deck. -/
theorem others_keep (member : IsMember room conn registration)
    (controls : room.controllerId = some registration.id) (other : call.conn ≠ conn) :
    (room.step config call).1.decks = room.decks ∧
      IsMember (room.step config call).1 conn registration ∧
      (room.step config call).1.controllerId = some registration.id := by
  have transition := Server.step_transition config room call
  refine ⟨(calm_call transition member controls other).1, ?_⟩
  generalize room.step config call = handled at transition
  cases transition with
  | idle => exact ⟨member, controls⟩
  | join joining msg draws id name unregistered fresh free named isHello =>
      have elsewhere : conn ≠ joining := Ne.symm other
      refine ⟨⟨?_, ?_⟩, controls⟩
      · simp [Server.welcome, Room.register, Function.update_of_ne elsewhere, member.registered]
      · simp [Server.welcome, Room.register, List.lookup_append, member.live]
  | claim calling msg draws claimant claimantMember unclaimed isClaim =>
      rw [unclaimed] at controls
      cases controls
  | release calling msg draws claimant claimantMember held isRelease =>
      have same := Option.some.inj (held.symm.trans controls)
      exact absurd (claimantMember.conn_eq member same) other
  | delta calling msg draws source deck changes sourceMember held validated =>
      have same := Option.some.inj (held.symm.trans controls)
      exact absurd (sourceMember.conn_eq member same) other
  | leave leaving departed leavingMember =>
      have unlike : registration.id ≠ departed.id := fun same =>
        other (leavingMember.conn_eq member same.symm)
      refine ⟨⟨member.registered, ?_⟩, ?_⟩
      · simp only [Room.remove]
        rw [AssocList.lookup_filter_ne unlike]
        exact member.live
      · simp only [Room.remove, controls, Option.some.injEq, if_neg unlike]

/-- What every call keeps of a connection's control is kept by a run. -/
theorem run_keep {calls : List Call}
    (keeps : ∀ call ∈ calls, ∀ room : Room, IsMember room conn registration →
      room.controllerId = some registration.id →
      (room.step config call).1.decks = room.decks ∧
        IsMember (room.step config call).1 conn registration ∧
        (room.step config call).1.controllerId = some registration.id)
    (member : IsMember room conn registration)
    (controls : room.controllerId = some registration.id) :
    (Machine.run (Room.step config) room calls).decks = room.decks ∧
      IsMember (Machine.run (Room.step config) room calls) conn registration ∧
      (Machine.run (Room.step config) room calls).controllerId = some registration.id := by
  induction calls generalizing room with
  | nil => exact ⟨rfl, member, controls⟩
  | cons call rest ih =>
      obtain ⟨first, later⟩ := List.forall_mem_cons.mp keeps
      obtain ⟨decks, stays, still⟩ := first room member controls
      obtain ⟨same, last⟩ := ih later stays still
      exact ⟨same.trans decks, last⟩

theorem run_others_keep (member : IsMember room conn registration)
    (controls : room.controllerId = some registration.id) {calls : List Call}
    (others : ∀ call ∈ calls, call.conn ≠ conn) :
    (Machine.run (Room.step config) room calls).decks = room.decks ∧
      IsMember (Machine.run (Room.step config) room calls) conn registration ∧
      (Machine.run (Room.step config) room calls).controllerId = some registration.id := by
  refine run_keep (fun call listed room member controls => ?_) member controls
  exact others_keep member controls (others call listed)

/-- A delta that the room answers with ok came from the controller, and is applied. -/
theorem accepted_step {delta : StateDelta} {digits : ℚ → ℚ}
    (exact : (ClientMessage.delta delta).Exact digits) {draws : Server.Draws}
    (accepted : (room.step config
      (.message conn ((ClientMessage.delta delta).toJs digits) draws)).2.result.ok = true) :
    ∃ registration, IsMember room conn registration ∧
      room.controllerId = some registration.id ∧
      (room.step config (.message conn ((ClientMessage.delta delta).toJs digits) draws)).1 =
        Server.applyDelta room delta.deck delta.toChanges := by
  rw [ClientMessage.toJs_of_exact exact] at accepted ⊢
  have typed := typeField?_asJs (.delta delta)
  cases registered : room.conns conn with
  | none =>
      have greeting : js MessageType.delta.text ≠ js "hello" := by decide
      simp [Room.step, Server.handleMessage, isPlainObject_asJs, registered, typed, messageTypeOf,
        greeting, Server.closeHandshake] at accepted
  | some registration =>
      simp only [Room.step, Server.handleMessage, isPlainObject_asJs, registered,
        validateEnvelope_asJs, Bool.not_true, Bool.false_eq_true, Option.isNone_some, ↓reduceIte,
        messageTypeOf, Server.handleDelta] at accepted ⊢
      cases live : room.isMember conn with
      | false => simp [live, Server.refuse] at accepted
      | true =>
          simp only [live, Bool.not_true, Bool.false_eq_true, ↓reduceIte] at accepted ⊢
          cases validated : Server.validateDelta (ClientMessage.delta delta).asJs with
          | error reason => simp [validated, Server.refuse] at accepted
          | ok checked =>
              obtain ⟨deck, changes⟩ := checked
              obtain ⟨rfl, rfl⟩ := validated_delta_eq validated
              simp only [validated] at accepted ⊢
              split at accepted
              · cases accepted
              · rename_i controls
                have held : room.controllerId = some registration.id :=
                  (not_not.mp controls).symm
                rw [if_neg controls]
                exact ⟨registration, (Server.isMember_eq_true_iff registered).mp live, held, rfl⟩

end Calls

section Resync

variable (config : RoomConfig) (room : Room) (conn : ConnId) (player : Player)

/-- A deck as its client plays it, with the engine's position while it is playing. -/
def playedDeck (player : Player) (deck : DeckId) : Server.Deck :=
  let state := player.app.component.stateManager.getState deck
  { state.toDeck with
    positionSeconds :=
      if state.playing then (player.decks deck).getCurrentPosition else state.positionSeconds }

/-- The two messages of a resync as they reach the room, with others' calls in between. -/
def resyncCalls (digits : ℚ → ℚ) (conn : ConnId) (first second : ClientMessage)
    (draws : Bool → Server.Draws) (between : List Call) : List Call :=
  .message conn (first.toJs digits) (draws false) ::
    (between ++ [.message conn (second.toJs digits) (draws true)])

/-- Every field of a resync is written, whatever the deck was before. -/
theorem lookup_applyDelta_fullResync (room : Room) (written deck : DeckId)
    (state : PlaybackState) :
    (Server.applyDelta room (Client.fullResyncDelta written state).deck
      (Client.fullResyncDelta written state).toChanges).decks.lookup deck =
        if deck = written then some state.toDeck else room.decks.lookup deck :=
  Server.lookup_writeDeck written deck _ room.decks

variable {config room conn player}

/-- Once both deltas are accepted the room has the decks of the client's state. -/
theorem decks_resync {digits : ℚ → ℚ} {first second : ClientMessage}
    {draws : Bool → Server.Draws} {between : List Call}
    (pushed : player.app.component.pushFullResync = [first, second])
    (exact : ∀ message ∈ player.app.component.pushFullResync, message.Exact digits)
    (others : ∀ call ∈ between, call.conn ≠ conn)
    (accepted : ∀ row ∈ Machine.trace (Room.step config) room
      (resyncCalls digits conn first second draws between),
        row.input.conn = conn → row.output.result.ok = true) (deck : DeckId) :
    (Machine.run (Room.step config) room
      (resyncCalls digits conn first second draws between)).decks.lookup deck =
        some (player.app.component.stateManager.getState deck).toDeck := by
  rw [pushed, List.forall_mem_cons, List.forall_mem_singleton] at exact
  obtain ⟨rfl, rest⟩ := List.cons.inj pushed
  obtain ⟨rfl, _⟩ := List.cons.inj rest
  simp only [resyncCalls, Machine.trace, Machine.trace_append, List.forall_mem_cons,
    List.forall_mem_append] at accepted
  obtain ⟨acceptedA, _, acceptedB, _⟩ := accepted
  obtain ⟨registration, member, controls, changedA⟩ := accepted_step exact.1 (acceptedA rfl)
  obtain ⟨_, _, _, changedB⟩ := accepted_step exact.2 (acceptedB rfl)
  simp only [resyncCalls, Machine.run, Machine.run_append, changedA] at changedB ⊢
  have kept := (@run_others_keep config (Server.applyDelta room
    (Client.fullResyncDelta .A (player.app.component.stateManager.getState .A)).deck
    (Client.fullResyncDelta .A (player.app.component.stateManager.getState .A)).toChanges) conn
    registration ⟨member.registered, member.live⟩ controls between others).1
  rw [changedB, lookup_applyDelta_fullResync, kept, lookup_applyDelta_fullResync]
  cases deck with
  | A => rfl
  | B => rfl

/-- Once the room has accepted a full resync, in digits that stand for its numbers, the
decks are those that the client plays exactly if the stored position of each playing deck is
the engine's. -/
theorem resync_publishes_playback_iff (digits : ℚ → ℚ) (config : RoomConfig) (room : Room)
    (conn : ConnId) (player : Player) (first second : ClientMessage)
    (draws : Bool → Server.Draws) (between : List Call)
    (pushed : player.app.component.pushFullResync = [first, second])
    (exact : ∀ message ∈ player.app.component.pushFullResync, message.Exact digits)
    (others : ∀ call ∈ between, call.conn ≠ conn)
    (accepted : ∀ row ∈ Machine.trace (Room.step config) room
      (resyncCalls digits conn first second draws between),
        row.input.conn = conn → row.output.result.ok = true) :
    (∀ deck, (Machine.run (Room.step config) room
        (resyncCalls digits conn first second draws between)).decks.lookup deck =
          some (playedDeck player deck)) ↔
      ∀ deck, (player.app.component.stateManager.getState deck).playing = true →
        (player.app.component.stateManager.getState deck).positionSeconds =
          (player.decks deck).getCurrentPosition := by
  apply forall_congr'
  intro deck
  rw [decks_resync pushed exact others accepted, Option.some.injEq]
  cases playing : (player.app.component.stateManager.getState deck).playing with
  | false => simp [playedDeck, playing, PlaybackState.toDeck]
  | true => simp [playedDeck, playing, PlaybackState.toDeck]

/-- Ana alone in her room, and in control of it. -/
def claimed : Room :=
  Server.runRoom party
    [.message 0 (ClientMessage.hello "Ana" "party").asJs fun _ => anaId,
      .message 0 (ClientMessage.asJs .claimControl) fun _ => anaId]

/-- What reaches Ana, up to her becoming controller. -/
def welcomed : PlayerEvent := .message 0 anaWelcome.toVar

def promoted : PlayerEvent := .message 2000 (Server.Frame.roleChanged anaId .controller).toVar

/-- Any track is there, ten seconds long. -/
def tenSeconds : Engine.AudioRepository := fun _ => some (.silence 100 10)

def anaRuns (events : List PlayerEvent) : Player :=
  Machine.run (Player.step tenSeconds 0) {} ([.connect, welcomed] ++ events ++ [promoted])

/-- Ana has played a track for a second before she claims control. -/
def playingAna : Player :=
  anaRuns [.edit 0 (Client.loadTrackDelta .A "first"), .edit 0 { deck := .A, playing := some true },
    .prepareToPlay .A 512 10, .block .A 10]

/-- After that second she has sought to where her deck stands. -/
def settledAna : Player :=
  anaRuns [.edit 0 (Client.loadTrackDelta .A "first"), .edit 0 { deck := .A, playing := some true },
    .prepareToPlay .A 512 10, .block .A 10, .edit 1000 { deck := .A, positionSeconds := some 1 }]

def resyncOf (player : Player) (deck : DeckId) : ClientMessage :=
  .delta (Client.fullResyncDelta deck (player.app.component.stateManager.getState deck))

/-- The calls of a resync that nobody else's call comes between. -/
def resyncAlone (player : Player) : List Call :=
  resyncCalls Client.fifteenPlaces 0 (resyncOf player .A) (resyncOf player .B)
    (fun _ _ => anaId) []

theorem resync_publishes_playback_settled :
    (playedDeck settledAna .A).playing = true ∧ (playedDeck settledAna .A).positionSeconds = 1 ∧
      (Machine.run (Room.step party) claimed (resyncAlone settledAna)).decks.lookup .A =
        some (playedDeck settledAna .A) := by
  have accepted : (Machine.trace (Room.step party) claimed (resyncAlone settledAna)).all
      (·.output.result.ok) = true := by decide +kernel
  refine ⟨by decide +kernel, by decide +kernel, ?_⟩
  refine (resync_publishes_playback_iff Client.fifteenPlaces party claimed 0 settledAna _ _
    (fun _ _ => anaId) [] rfl (by decide +kernel) (by simp)
    fun row member _ => List.all_eq_true.mp accepted row member).mpr ?_ .A
  intro deck
  cases deck with
  | A | B => decide +kernel

/-- The room is told that a deck stands where it was started. -/
theorem resync_publishes_playback_false :
    ¬ ∀ (digits : ℚ → ℚ) (config : RoomConfig) (room : Room) (conn : ConnId) (player : Player)
      (first second : ClientMessage) (draws : Bool → Server.Draws) (between : List Call),
      player.app.component.pushFullResync = [first, second] →
      (∀ message ∈ player.app.component.pushFullResync, message.Exact digits) →
      (∀ call ∈ between, call.conn ≠ conn) →
      (∀ row ∈ Machine.trace (Room.step config) room
        (resyncCalls digits conn first second draws between),
          row.input.conn = conn → row.output.result.ok = true) →
      ∀ deck, (Machine.run (Room.step config) room
        (resyncCalls digits conn first second draws between)).decks.lookup deck =
          some (playedDeck player deck) := by
  intro publishes
  have accepted : (Machine.trace (Room.step party) claimed (resyncAlone playingAna)).all
      (·.output.result.ok) = true := by decide +kernel
  have rows : ∀ row ∈ Machine.trace (Room.step party) claimed (resyncAlone playingAna),
      row.input.conn = 0 → row.output.result.ok = true :=
    fun row member _ => List.all_eq_true.mp accepted row member
  have exact : ∀ message ∈ playingAna.app.component.pushFullResync,
      message.Exact Client.fifteenPlaces := by decide +kernel
  have shown := publishes Client.fifteenPlaces party claimed 0 playingAna _ _ (fun _ _ => anaId) []
    rfl exact (by simp) rows .A
  rw [decks_resync rfl exact (by simp) rows, Option.some.injEq] at shown
  have stale : (playingAna.app.component.stateManager.getState .A).toDeck.positionSeconds ≠
      (playedDeck playingAna .A).positionSeconds := by decide +kernel
  exact stale (congrArg Server.Deck.positionSeconds shown)

end Resync

end DjApp.System
