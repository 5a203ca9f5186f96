import DjApp.Client.FrameDecoding
import DjApp.Server.SentFrames

/-! What each frame of a room does to the client, with its JSON out of the way. -/

set_option autoImplicit false

namespace DjApp.Client

open Library
open Server (Frame)

abbrev Decks := DeckId → PlaybackState

/-- The decks that are there replace those of the client. -/
def Decks.overwrite (states : Decks) (decks : List (DeckId × Server.Deck)) : Decks :=
  fun deck => ((decks.lookup deck).map PlaybackState.ofDeck).getD (states deck)

def Decks.receive (states : Decks) : Frame → Decks
  | .welcome _ _ _ decks _ | .snapshot _ decks => states.overwrite decks
  | .delta _ _ deck changes =>
      Function.update states deck ((states deck).merge (.ofChanges deck changes))
  | .peerJoined _ _ _ | .peerLeft _ | .roleChanged _ _ | .error _ _ => states

def PeerInfo.ofPeer (peer : Server.Peer) : PeerInfo :=
  ⟨peer.clientId.text, peer.name.toText, peer.role⟩

/-- What the client knows of its own place in the room and of the other members. -/
structure Knowledge where
  ownClientId : String
  role : Role
  peers : List PeerInfo
  deriving DecidableEq

def Knowledge.receive (known : Knowledge) : Frame → Knowledge
  | .welcome id role _ _ peers =>
      ⟨id.text, role, (peers.map PeerInfo.ofPeer).foldl addOrUpdatePeer []⟩
  | .peerJoined id name role =>
      { known with peers := addOrUpdatePeer known.peers ⟨id.text, name.toText, role⟩ }
  | .peerLeft id => { known with peers := known.peers.filter (·.clientId ≠ id.text) }
  | .roleChanged id role =>
      if id.text = known.ownClientId then { known with role := role }
      else { known with peers := setPeerRole known.peers id.text role }
  | .delta _ _ _ _ | .snapshot _ _ | .error _ _ => known

def MainComponent.knowledge (component : MainComponent) : Knowledge :=
  ⟨component.ownClientId, component.role, component.peers⟩

def SyncPublisher.receive (publisher : SyncPublisher) (role : Role) : Frame → SyncPublisher
  | .welcome _ _ _ _ _ => { publisher with connected := true, role := role }
  | .roleChanged _ _ | .peerLeft _ => { publisher with role := role }
  | .delta _ _ _ _ | .snapshot _ _ | .peerJoined _ _ _ | .error _ _ => publisher

def isWelcome : Frame → Bool
  | .welcome _ _ _ _ _ => true
  | _ => false

def MainComponent.receive (component : MainComponent) (frame : Frame) : MainComponent :=
  let known := component.knowledge.receive frame
  { component with
    stateManager := ⟨Decks.receive component.stateManager.states frame⟩
    syncPublisher := component.syncPublisher.receive known.role frame
    ownClientId := known.ownClientId
    role := known.role
    peers := known.peers
    connected := match frame with
      | .welcome _ _ _ _ _ => true
      | _ => component.connected }

/-- The sequence number of a frame, as far as an `int` counts. -/
def seenSeq (serverSeq : ℕ) : Option ℕ := if serverSeq < 2 ^ 31 then some serverSeq else none

def nextSeq (lastSeen : Option ℕ) : Frame → Option ℕ
  | .welcome _ _ serverSeq _ _ | .snapshot serverSeq _ | .delta serverSeq _ _ _ =>
      (seenSeq serverSeq).or lastSeen
  | .peerJoined _ _ _ | .peerLeft _ | .roleChanged _ _ | .error _ _ => lastSeen

/-- What the client sends on a frame: a full resync when it becomes controller, and a
request when it has missed a delta. -/
def ClientApp.replies (app : ClientApp) : Frame → List ClientMessage
  | .delta serverSeq _ _ _ =>
      if needsSnapshot app.lastSeenServerSeq (seenSeq serverSeq) then [.requestSnapshot] else []
  | .roleChanged id role =>
      if id.text = app.component.ownClientId ∧ role = .controller ∧
        app.component.role ≠ .controller then app.component.pushFullResync else []
  | _ => []

def ClientApp.receive (app : ClientApp) (frame : Frame) : ClientApp :=
  ⟨app.component.receive frame, nextSeq app.lastSeenServerSeq frame⟩

section Clamping

theorem clamp_ofDeck {deck : Server.Deck} (valid : deck.Valid) :
    (PlaybackState.ofDeck deck).clamp = .ofDeck deck := by
  have loop : clampLoop (deck.loop.map .ofLoop) = deck.loop.map .ofLoop := by
    cases present : deck.loop with
    | none => rfl
    | some points => exact clampLoop_of_valid (valid.loop points present)
  simp only [PlaybackState.clamp, PlaybackState.ofDeck, clampPosition_of_holds valid.positionSeconds,
    clampGain, clampRate, clampPitch, sharedRange_gain.clamp_ofDouble valid.gain,
    sharedRange_playbackRate.clamp_ofDouble valid.playbackRate,
    sharedRange_pitchOffsetSemitones.clamp_ofDouble valid.pitchOffsetSemitones, loop]

theorem map_eq_self {Value : Type} {source : Option Value} {convert : Value → Value}
    (kept : ∀ value, source = some value → convert value = value) : source.map convert = source := by
  cases source with
  | none => rfl
  | some value => exact congrArg some (kept value rfl)

theorem clamp_ofChanges {changes : Server.Changes} (valid : changes.Valid) (deck : DeckId) :
    (StateDelta.ofChanges deck changes).clamp = .ofChanges deck changes := by
  have position : changes.positionSeconds.map clampPosition = changes.positionSeconds :=
    map_eq_self fun value present => clampPosition_of_holds (valid.positionSeconds value present)
  have gain : (changes.gain.map Single.ofDouble).map clampGain = changes.gain.map .ofDouble := by
    apply map_eq_self
    intro value present
    obtain ⟨original, given, rfl⟩ := Option.map_eq_some_iff.mp present
    exact sharedRange_gain.clamp_ofDouble (valid.gain original given)
  have rate : (changes.playbackRate.map Single.ofDouble).map clampRate =
      changes.playbackRate.map .ofDouble := by
    apply map_eq_self
    intro value present
    obtain ⟨original, given, rfl⟩ := Option.map_eq_some_iff.mp present
    exact sharedRange_playbackRate.clamp_ofDouble (valid.playbackRate original given)
  have pitch : (changes.pitchOffsetSemitones.map Single.ofDouble).map clampPitch =
      changes.pitchOffsetSemitones.map .ofDouble := by
    apply map_eq_self
    intro value present
    obtain ⟨original, given, rfl⟩ := Option.map_eq_some_iff.mp present
    exact sharedRange_pitchOffsetSemitones.clamp_ofDouble (valid.pitchOffsetSemitones original given)
  have loop : (changes.loop.map (·.map LoopPoints.ofLoop)).map clampLoop =
      changes.loop.map (·.map .ofLoop) := by
    apply map_eq_self
    intro value present
    obtain ⟨original, given, rfl⟩ := Option.map_eq_some_iff.mp present
    cases original with
    | none => rfl
    | some points => exact clampLoop_of_valid (valid.loop points given)
  simp only [StateDelta.clamp, StateDelta.ofChanges, position, gain, rate, pitch, loop]

end Clamping

section Remote

theorem merge_of_empty {delta : StateDelta} (empty : delta.empty = true) (state : PlaybackState) :
    state.merge delta = state := by
  simp only [StateDelta.empty, Bool.and_eq_true, Option.isNone_iff_eq_none] at empty
  obtain ⟨⟨⟨⟨⟨⟨⟨trackId, playing⟩, position⟩, gain⟩, rate⟩, pitch⟩, loop⟩, repeats⟩ := empty
  simp [PlaybackState.merge, trackId, playing, position, gain, rate, pitch, loop, repeats]

@[simp] theorem merge_fullResyncDelta (state : PlaybackState) (deck : DeckId)
    (full : PlaybackState) : state.merge (fullResyncDelta deck full) = full := rfl

theorem clamp_fullResyncDelta {state : PlaybackState} (clamped : state.clamp = state)
    (deck : DeckId) : (fullResyncDelta deck state).clamp = fullResyncDelta deck state := by
  have position := congrArg PlaybackState.positionSeconds clamped
  have gain := congrArg PlaybackState.gain clamped
  have rate := congrArg PlaybackState.playbackRate clamped
  have pitch := congrArg PlaybackState.pitchOffsetSemitones clamped
  have loop := congrArg PlaybackState.loop clamped
  simp only [PlaybackState.clamp] at position gain rate pitch loop
  simp [StateDelta.clamp, fullResyncDelta, position, gain, rate, pitch, loop]

/-- A change from the room reaches the state and nothing else. -/
theorem MainComponent.applyDelta_remote (component : MainComponent) (now : ℚ) {delta : StateDelta}
    (clamped : delta.clamp = delta) :
    component.applyDelta now delta .remote =
      ({ component with
          stateManager := ⟨Function.update component.stateManager.states delta.deck
            ((component.stateManager.states delta.deck).merge delta)⟩ }, []) := by
  cases empty : delta.empty with
  | true =>
      simp [applyDelta, StateManager.applyDelta, empty, merge_of_empty empty]
  | false =>
      simp [applyDelta, StateManager.applyDelta, empty, StateManager.prepare, clamped,
        StateDelta.withPosition, StateManager.getState, SyncPublisher.notify]

theorem MainComponent.applyDeckSnapshot_deckToJson (component : MainComponent) (now : ℚ)
    (deck : DeckId) {state : Server.Deck} (valid : state.Valid) :
    component.applyDeckSnapshot now deck (Server.deckToJson state).toVar =
      ({ component with
          stateManager := ⟨Function.update component.stateManager.states deck (.ofDeck state)⟩ },
        []) := by
  have clamped := clamp_ofDeck valid
  simp only [applyDeckSnapshot, playbackStateFromVar_deckToJson valid, clamped,
    component.applyDelta_remote now (clamp_fullResyncDelta clamped deck), merge_fullResyncDelta]
  rfl

theorem deckText_injective : Function.Injective DeckId.text := by
  intro left right same
  cases left <;> cases right <;> first | rfl | simp [DeckId.text] at same

theorem lookup_decksToJson (decks : List (DeckId × Server.Deck)) (deck : DeckId) :
    (decks.map fun entry => (entry.1.text, (Server.deckToJson entry.2).toVar)).lookup deck.text =
      (decks.lookup deck).map fun state => (Server.deckToJson state).toVar :=
  AssocList.lookup_map_key deckText_injective deck (fun state => (Server.deckToJson state).toVar)
    decks

theorem MainComponent.applySnapshotDeck_decks (component : MainComponent) (now : ℚ)
    {decks : List (DeckId × Server.Deck)} (valid : Server.DecksValid decks) (deck : DeckId) :
    component.applySnapshotDeck now
        (decks.map fun entry => (entry.1.text, (Server.deckToJson entry.2).toVar)) deck =
      ({ component with
          stateManager := ⟨Function.update component.stateManager.states deck
            (Decks.overwrite component.stateManager.states decks deck)⟩ }, []) := by
  rw [applySnapshotDeck, lookup_decksToJson]
  cases found : decks.lookup deck with
  | none => simp [Decks.overwrite, found]
  | some state =>
      simp only [Option.map_some, Decks.overwrite, found, Option.getD_some]
      exact component.applyDeckSnapshot_deckToJson now deck (valid.lookup found)

theorem MainComponent.applySnapshot_decksToJson (component : MainComponent) (now : ℚ)
    {decks : List (DeckId × Server.Deck)} (valid : Server.DecksValid decks) :
    component.applySnapshot now (Server.decksToJson decks).toVar =
      ({ component with
          stateManager := ⟨Decks.overwrite component.stateManager.states decks⟩ }, []) := by
  have both : Function.update (Function.update component.stateManager.states .A
      (Decks.overwrite component.stateManager.states decks .A)) .B
      (Decks.overwrite component.stateManager.states decks .B) =
      Decks.overwrite component.stateManager.states decks := by
    funext deck
    cases deck <;> rfl
  simp only [Server.decksToJson, toVar_object, List.map_map, Function.comp_def, applySnapshot,
    applySnapshotDeck_decks _ _ valid, List.append_nil]
  rw [← both]
  rfl

end Remote

section Dispatch

@[simp] theorem roleFromWireString_text (role : Role) : roleFromWireString role.text = role := by
  cases role <;> decide

theorem messageServerSeq_natCast {fields : Properties} {shown : ℕ}
    (found : fields.lookup "serverSeq" = some (.number shown)) :
    messageServerSeq (.obj fields) = if shown < 2 ^ 31 then some shown else none := by
  have small_iff : ¬ intMax < (shown : ℚ) ↔ shown < 2 ^ 31 := by
    have bound : intMax = ((2 ^ 31 - 1 : ℕ) : ℚ) := by norm_num [intMax]
    rw [bound, Nat.cast_lt]
    omega
  have natural : (⌊(shown : ℚ)⌋ : ℚ) = shown := by rw [Int.floor_natCast, Int.cast_natCast]
  simp only [messageServerSeq, found, Option.bind_some, asFiniteNumber_number, natural, ne_eq,
    not_true_eq_false, false_or, not_lt.mpr (Nat.cast_nonneg shown), Rat.num_natCast,
    Int.toNat_natCast]
  by_cases small : shown < 2 ^ 31
  · rw [if_neg (small_iff.mpr small), if_pos small]
  · rw [if_pos (not_not.mp (mt small_iff.mp small)), if_neg small]

theorem messageServerSeq_sequenceNumber {fields : Properties} {serverSeq : ℕ}
    (found : fields.lookup "serverSeq" = some (Server.sequenceNumber serverSeq).toVar) :
    messageServerSeq (.obj fields) = seenSeq serverSeq := by
  rw [Server.sequenceNumber, toVar_number] at found
  rw [messageServerSeq_natCast found, seenSeq]
  by_cases small : serverSeq < 2 ^ 31
  · have exact : min serverSeq (2 ^ 53) = serverSeq := by omega
    rw [exact]
  · have beyond : ¬ min serverSeq (2 ^ 53) < 2 ^ 31 := by omega
    rw [if_neg beyond, if_neg small]

theorem peerFromFields_peerToJson (varToString : Var → String) (peer : Server.Peer)
    (fields : Properties)
    (clientId : fields.lookup "clientId" = some (.str peer.clientId.text))
    (name : fields.lookup "name" = some (.str peer.name.toText))
    (role : fields.lookup "role" = some (.str peer.role.text)) :
    hasPeerFields fields = true ∧ peerFromFields varToString fields = .ofPeer peer := by
  simp [hasPeerFields, hasProperty, peerFromFields, propertyString, getProperty, clientId, name,
    role, PeerInfo.ofPeer]

theorem welcomePeers_toVar (varToString : Var → String) (peers : List Server.Peer) :
    MainComponent.welcomePeers varToString (JsValue.toVar (.arr (peers.map Server.peerToJson))) =
      (peers.map PeerInfo.ofPeer).foldl addOrUpdatePeer [] := by
  rw [toVar_arr, MainComponent.welcomePeers, List.map_map, List.foldl_map, List.foldl_map]
  congr 1
  funext listed peer
  simp only [Function.comp_apply, Server.peerToJson, toVar_object, List.map_cons, List.map_nil,
    toVar_text, toVar_str]
  obtain ⟨complete, same⟩ := peerFromFields_peerToJson varToString peer
    [("clientId", .str peer.clientId.text), ("name", .str peer.name.toText),
      ("role", .str peer.role.text)] rfl rfl rfl
  simp only [complete, same, ↓reduceIte]

variable {config : Server.RoomConfig} (app : ClientApp) (now : ℚ)

private theorem dispatch_welcome (id : Server.ClientId) (role : Role) (serverSeq : ℕ)
    {decks : List (DeckId × Server.Deck)} (peers : List Server.Peer)
    (valid : Server.DecksValid decks) :
    let frame : Frame := .welcome id role serverSeq decks peers
    app.dispatch now frame.toVar = (app.receive frame, app.replies frame) := by
  intro frame
  have seq : messageServerSeq frame.toVar = seenSeq serverSeq := by
    simp only [frame, Frame.toVar, Frame.asJson, toVar_object]
    exact messageServerSeq_sequenceNumber rfl
  have applied := MainComponent.applySnapshot_decksToJson
    { app.component.handleConnectionChange true with ownClientId := id.text, role := role } now valid
  have listed := welcomePeers_toVar app.component.varToString peers
  rw [ClientApp.dispatch, ClientApp.noteSeq, seq]
  simp [frame, Frame.toVar, Frame.asJson, messageType, List.lookup_cons, ClientApp.withComponent,
    MainComponent.handleWelcome, MainComponent.handleConnectionChange, propertyString, getProperty,
    MainComponent.applyRoleToUI, ClientApp.receive, ClientApp.replies, MainComponent.receive,
    Knowledge.receive, Decks.receive, SyncPublisher.receive, nextSeq] at applied listed ⊢
  simp [applied, listed]

private theorem dispatch_delta (serverSeq : ℕ) (source : Server.ClientId) (deck : DeckId)
    {changes : Server.Changes} (valid : changes.Valid) :
    let frame : Frame := .delta serverSeq source deck changes
    app.dispatch now frame.toVar = (app.receive frame, app.replies frame) := by
  intro frame
  have type : messageType frame.toVar = "delta" := by
    simp [frame, Frame.toVar, Frame.asJson, messageType]
  have seq : messageServerSeq frame.toVar = seenSeq serverSeq := by
    simp only [frame, Frame.toVar, Frame.asJson, toVar_object]
    exact messageServerSeq_sequenceNumber rfl
  have parsed : parseDeltaMessage frame.toVar = .ok (.ofChanges deck changes) :=
    parseDeltaMessage_delta serverSeq source deck valid
  have clamped := clamp_ofChanges valid deck
  simp only [ClientApp.dispatch, type, ClientApp.dispatchDelta, parsed, clamped, seq,
    MainComponent.handleRemoteDelta, app.component.applyDelta_remote now clamped,
    ClientApp.noteSeq, ClientApp.withComponent, List.append_nil]
  rfl

private theorem dispatch_snapshot (serverSeq : ℕ) {decks : List (DeckId × Server.Deck)}
    (valid : Server.DecksValid decks) :
    let frame : Frame := .snapshot serverSeq decks
    app.dispatch now frame.toVar = (app.receive frame, app.replies frame) := by
  intro frame
  have seq : messageServerSeq frame.toVar = seenSeq serverSeq := by
    simp only [frame, Frame.toVar, Frame.asJson, toVar_object]
    exact messageServerSeq_sequenceNumber rfl
  have applied := app.component.applySnapshot_decksToJson now valid
  rw [ClientApp.dispatch, ClientApp.noteSeq, seq]
  simp [frame, Frame.toVar, Frame.asJson, messageType, List.lookup_cons, ClientApp.withComponent,
    MainComponent.handleServerEvent, getProperty, ClientApp.receive, ClientApp.replies,
    MainComponent.receive, Knowledge.receive, MainComponent.knowledge, Decks.receive,
    SyncPublisher.receive, nextSeq, applied]

/-- The client's handling of the text of a frame is the handling of the frame. -/
theorem dispatch_toVar {frame : Frame} (valid : frame.Valid config) :
    app.dispatch now frame.toVar = (app.receive frame, app.replies frame) := by
  cases frame with
  | welcome id role serverSeq decks peers =>
      exact dispatch_welcome app now id role serverSeq peers valid.2.1
  | peerJoined id name role =>
      simp [ClientApp.dispatch, Frame.toVar, Server.Frame.asJson, messageType, List.lookup_cons,
        ClientApp.withComponent, MainComponent.handleServerEvent, hasPeerFields, hasProperty,
        peerFromFields, propertyString, getProperty, ClientApp.receive, ClientApp.replies,
        MainComponent.receive, Knowledge.receive, MainComponent.knowledge, Decks.receive,
        SyncPublisher.receive, nextSeq]
  | peerLeft id =>
      simp [ClientApp.dispatch, Frame.toVar, Server.Frame.asJson, messageType, List.lookup_cons,
        ClientApp.withComponent, MainComponent.handleServerEvent, propertyString, getProperty,
        MainComponent.applyRoleToUI, ClientApp.receive, ClientApp.replies, MainComponent.receive,
        Knowledge.receive, MainComponent.knowledge, Decks.receive, SyncPublisher.receive, nextSeq]
  | roleChanged id role =>
      by_cases own : id.text = app.component.ownClientId
      · simp [ClientApp.dispatch, Frame.toVar, Server.Frame.asJson, messageType, List.lookup_cons,
          ClientApp.withComponent, MainComponent.handleServerEvent, propertyString, getProperty,
          MainComponent.handleRoleChanged, own, MainComponent.applyRoleToUI,
          MainComponent.pushFullResync, ClientApp.receive, ClientApp.replies,
          MainComponent.receive, Knowledge.receive, MainComponent.knowledge, Decks.receive,
          SyncPublisher.receive, nextSeq]
      · simp [ClientApp.dispatch, Frame.toVar, Server.Frame.asJson, messageType, List.lookup_cons,
          ClientApp.withComponent, MainComponent.handleServerEvent, propertyString, getProperty,
          MainComponent.handleRoleChanged, own, MainComponent.applyRoleToUI, ClientApp.receive,
          ClientApp.replies, MainComponent.receive, Knowledge.receive, MainComponent.knowledge,
          Decks.receive, SyncPublisher.receive, nextSeq]
  | delta serverSeq source deck changes =>
      exact dispatch_delta app now serverSeq source deck valid
  | snapshot serverSeq decks => exact dispatch_snapshot app now serverSeq valid
  | error code message =>
      simp [ClientApp.dispatch, Frame.toVar, Server.Frame.asJson, messageType,
        ClientApp.withComponent, MainComponent.handleServerEvent, ClientApp.receive,
        ClientApp.replies, MainComponent.receive, Knowledge.receive, MainComponent.knowledge,
        Decks.receive, SyncPublisher.receive, nextSeq]

end Dispatch

end DjApp.Client
