import DjApp.Client.ClientRun
import DjApp.Client.PublishedDeltas

/-! The states a client can reach and the deltas it can publish: all of them are ones
that the server accepts. -/

set_option autoImplicit false

namespace DjApp.Client

open Library
open Server (Frame Range)

section TrackIds

private theorem character_unit {char : Char} (listed : char ∈ trackIdCharacters) :
    char.toNat < 128 ∧ Server.isTrackIdUnit (UInt16.ofNat char.toNat) = true ∧
      (UInt16.ofNat char.toNat == 0x2E) = (char == '.') := by
  have checked : trackIdCharacters.all (fun char => decide (char.toNat < 128) &&
      (Server.isTrackIdUnit (UInt16.ofNat char.toNat) &&
        (UInt16.ofNat char.toNat == 0x2E) == (char == '.'))) = true := by
    decide +kernel
  simpa using List.all_eq_true.mp checked char listed

theorem encode_trackId {text : List Char} (allowed : ∀ char ∈ text, char ∈ trackIdCharacters) :
    Utf16.encode text = text.map fun char => UInt16.ofNat char.toNat := by
  induction text with
  | nil => rfl
  | cons char rest ih =>
      obtain ⟨first, others⟩ := List.forall_mem_cons.mp allowed
      have small := (character_unit first).1
      have single : Utf16.encodeChar char = [UInt16.ofNat char.toNat] := by
        rw [Utf16.encodeChar, if_pos (by omega)]
      rw [Utf16.encode, List.flatMap_cons, single, List.map_cons]
      exact congrArg _ (ih others)

theorem includesDotDot_encode {text : List Char}
    (allowed : ∀ char ∈ text, char ∈ trackIdCharacters) :
    Server.includesDotDot (text.map fun char => UInt16.ofNat char.toNat) = containsDotDot text := by
  induction text with
  | nil => rfl
  | cons first rest ih =>
      obtain ⟨firstAllowed, others⟩ := List.forall_mem_cons.mp allowed
      cases rest with
      | nil => rfl
      | cons second rest =>
          have secondAllowed := others second List.mem_cons_self
          have tail := ih others
          simp only [List.map_cons] at tail
          simp only [List.map_cons, containsDotDot, Server.includesDotDot, tail,
            (character_unit firstAllowed).2.2, (character_unit secondAllowed).2.2]

/-- The server accepts every track id that the client accepts. -/
theorem isValidTrackId_js {text : String} (valid : isValidTrackId text = true) :
    Server.isValidTrackId (js text) = true := by
  unfold isValidTrackId at valid
  split at valid
  · cases valid
  rename_i within
  split at valid
  · cases valid
  rename_i contained
  simp only [Bool.or_eq_true, List.isEmpty_iff, decide_eq_true_eq, not_or, not_lt] at within
  simp only [Bool.not_eq_true', Bool.not_eq_false, List.all_eq_true, List.contains_iff_mem]
    at contained
  simp only [Bool.not_eq_true', Bool.or_eq_false_iff, decide_eq_false_iff_not] at valid
  obtain ⟨⟨notDot, notDots⟩, noDots⟩ := valid
  have units : js text = text.toList.map fun char => UInt16.ofNat char.toNat :=
    encode_trackId contained
  have some : 1 ≤ text.toList.length := List.length_pos_of_ne_nil within.1
  have characters : (js text).all Server.isTrackIdUnit = true := by
    rw [units, List.all_map, List.all_eq_true]
    exact fun char member => (character_unit (contained char member)).2.1
  have dots : Server.includesDotDot (js text) = false := by
    rw [units, includesDotDot_encode contained]
    exact noDots
  have length : (js text).length = text.toList.length := by
    rw [units, List.length_map]
  simp only [Server.isValidTrackId, Server.matchesTrackIdPattern, length, characters, dots, js_beq,
    some, within.2, beq_false_of_ne notDot, beq_false_of_ne notDots, decide_true, Bool.and_true,
    Bool.or_false, Bool.not_false]

theorem trackIdOfText_valid {text : String} (valid : text = "" ∨ isValidTrackId text = true)
    (id : JsString) (named : trackIdOfText text = some id) : Server.isValidTrackId id = true := by
  unfold trackIdOfText at named
  split at named
  · cases named
  · rename_i nonempty
    cases named
    exact isValidTrackId_js (valid.resolve_left nonempty)

theorem trackIdText_valid {trackId : Option JsString}
    (valid : ∀ id, trackId = some id → Server.isValidTrackId id = true) :
    trackIdText trackId = "" ∨ isValidTrackId (trackIdText trackId) = true := by
  cases trackId with
  | none => exact .inl rfl
  | some id => exact .inr (isValidTrackId_toText (valid id rfl))

end TrackIds

/-- A state that the server would accept. -/
def PlaybackState.Sound (state : PlaybackState) : Prop := state.toDeck.Valid

/-- A delta that the server accepts. -/
structure StateDelta.Publishable (delta : StateDelta) : Prop where
  present : delta.empty = false
  valid : delta.toChanges.Valid

theorem sound_default : PlaybackState.Sound {} := by
  rw [PlaybackState.Sound, toDeck_default]
  exact Server.defaultDeckState_valid

theorem sound_merge {state : PlaybackState} {delta : StateDelta} (sound : state.Sound)
    (valid : delta.toChanges.Valid) : (state.merge delta).Sound := by
  rw [PlaybackState.Sound, ← assignChanges_toDeck]
  exact Server.assignChanges_valid sound valid

section Received

theorem LoopPoints.toLoop_ofLoop (loop : Server.Loop) : (LoopPoints.ofLoop loop).toLoop = loop := rfl

theorem SharedRange.holds_ofDouble {range : Range} {low high : Single}
    (shared : SharedRange range low high) {value : ℚ} (holds : range.Holds value) :
    range.Holds (Single.ofDouble value).value := by
  have bounds := shared.bounds holds
  rwa [shared.low, shared.high] at bounds

theorem sound_ofDeck {deck : Server.Deck} (valid : deck.Valid) :
    (PlaybackState.ofDeck deck).Sound where
  trackId := trackIdOfText_valid (trackIdText_valid valid.trackId)
  positionSeconds := valid.positionSeconds
  gain := sharedRange_gain.holds_ofDouble valid.gain
  playbackRate := sharedRange_playbackRate.holds_ofDouble valid.playbackRate
  pitchOffsetSemitones := sharedRange_pitchOffsetSemitones.holds_ofDouble valid.pitchOffsetSemitones
  loop := by
    intro loop present
    simp only [PlaybackState.toDeck, PlaybackState.ofDeck, Option.map_map, Function.comp_def,
      LoopPoints.toLoop_ofLoop, Option.map_id'] at present
    exact valid.loop loop present

theorem valid_ofChanges {changes : Server.Changes} (valid : changes.Valid) (deck : DeckId) :
    (StateDelta.ofChanges deck changes).toChanges.Valid := by
  have narrowed {range : Range} {low high : Single} (shared : SharedRange range low high)
      {source : Option ℚ} (holds : ∀ value, source = some value → range.Holds value) :
      ∀ value, (source.map Single.ofDouble).map (·.value) = some value → range.Holds value := by
    intro value present
    rw [Option.map_map] at present
    obtain ⟨original, given, rfl⟩ := Option.map_eq_some_iff.mp present
    exact shared.holds_ofDouble (holds original given)
  exact {
    trackId := by
      intro id present
      simp only [StateDelta.toChanges, StateDelta.ofChanges, Option.map_map] at present
      obtain ⟨original, given, named⟩ := Option.map_eq_some_iff.mp present
      refine trackIdOfText_valid (trackIdText_valid fun other same => ?_) id named
      exact valid.trackId other (same ▸ given)
    positionSeconds := valid.positionSeconds
    gain := narrowed sharedRange_gain valid.gain
    playbackRate := narrowed sharedRange_playbackRate valid.playbackRate
    pitchOffsetSemitones := narrowed sharedRange_pitchOffsetSemitones valid.pitchOffsetSemitones
    loop := by
      intro loop present
      simp only [StateDelta.toChanges, StateDelta.ofChanges, Option.map_map] at present
      obtain ⟨original, given, same⟩ := Option.map_eq_some_iff.mp present
      simp only [Function.comp_apply, Option.map_map, Function.comp_def,
        LoopPoints.toLoop_ofLoop, Option.map_id'] at same
      exact valid.loop loop (same ▸ given)
    starts := valid.starts }

theorem sound_receive {config : Server.RoomConfig} {states : Decks}
    (sound : ∀ deck, (states deck).Sound) {frame : Server.Frame} (valid : frame.Valid config)
    (deck : DeckId) : (Decks.receive states frame deck).Sound := by
  have overwritten {decks : List (DeckId × Server.Deck)} (valid : Server.DecksValid decks) :
      (states.overwrite decks deck).Sound := by
    unfold Decks.overwrite
    cases found : decks.lookup deck with
    | none => exact sound deck
    | some state => exact sound_ofDeck (valid.lookup found)
  cases frame with
  | welcome => exact overwritten valid.2.1
  | snapshot => exact overwritten valid
  | delta serverSeq source other changes =>
      by_cases same : deck = other
      · subst same
        simpa [Decks.receive] using sound_merge (sound deck) (valid_ofChanges valid deck)
      · simpa [Decks.receive, same] using sound deck
  | peerJoined | peerLeft | roleChanged | error => exact sound deck

end Received

section Published

theorem clampPosition_holds (seconds : ℚ) :
    Server.FieldRange.positionSeconds.Holds (clampPosition seconds) := by
  unfold clampPosition Ranges.clamp Ranges.positionSecondsMin Ranges.positionSecondsMax
  unfold Range.Holds Server.FieldRange.positionSeconds
  split
  · norm_num
  · split
    · norm_num
    · rename_i above below
      exact ⟨not_lt.mp above, not_lt.mp below⟩

theorem SharedRange.holds_clamp {range : Range} {low high : Single}
    (shared : SharedRange range low high) (ordered : range.min ≤ range.max) (value : Single) :
    range.Holds (value.clamp low high).value := by
  unfold Single.clamp Range.Holds
  rw [← shared.low, ← shared.high] at ordered ⊢
  split
  · exact ⟨le_rfl, ordered⟩
  · split
    · exact ⟨ordered, le_rfl⟩
    · rename_i above below
      exact ⟨not_lt.mp above, not_lt.mp below⟩

theorem clampLoop_valid {loop : Option LoopPoints} {points : LoopPoints}
    (clamped : clampLoop loop = some points) : points.toLoop.Valid := by
  obtain ⟨original, rfl, kept⟩ := Option.bind_eq_some_iff.mp clamped
  split at kept
  · cases kept
  · rename_i ordered
    cases kept
    have start := clampPosition_holds original.inSeconds
    have stop := clampPosition_holds original.outSeconds
    exact ⟨start.1, not_le.mp ordered, stop.2⟩

/-- A track that an edit may name: none, or one with a valid id. -/
def StateDelta.NamesTrack (delta : StateDelta) : Prop :=
  ∀ text, delta.trackId = some text → text = "" ∨ isValidTrackId text = true

theorem publishable_prepare {manager : StateManager} {delta : StateDelta}
    (sound : (manager.getState delta.deck).Sound) (present : delta.empty = false)
    (named : delta.NamesTrack) : (manager.prepare delta .own).Publishable := by
  have clamped {range : Range} {low high : Single} (shared : SharedRange range low high)
      (ordered : range.min ≤ range.max) (source : Option Single) :
      ∀ value, (source.map fun single => single.clamp low high).map (·.value) = some value →
        range.Holds value := by
    intro value clamped
    rw [Option.map_map] at clamped
    obtain ⟨original, _, rfl⟩ := Option.map_eq_some_iff.mp clamped
    exact shared.holds_clamp ordered original
  have trackId : ∀ id, delta.trackId.map trackIdOfText = some (some id) →
      Server.isValidTrackId id = true := by
    intro id found
    obtain ⟨text, given, same⟩ := Option.map_eq_some_iff.mp found
    exact trackIdOfText_valid (named text given) id same
  have position : ∀ value, delta.positionSeconds.map clampPosition = some value →
      Server.FieldRange.positionSeconds.Holds value := by
    intro value found
    obtain ⟨original, _, rfl⟩ := Option.map_eq_some_iff.mp found
    exact clampPosition_holds original
  have gain := clamped sharedRange_gain (by norm_num [Server.FieldRange.gain]) delta.gain
  have rate := clamped sharedRange_playbackRate (by norm_num [Server.FieldRange.playbackRate])
    delta.playbackRate
  have pitch := clamped sharedRange_pitchOffsetSemitones
    (by norm_num [Server.FieldRange.pitchOffsetSemitones]) delta.pitchOffsetSemitones
  have loop : ∀ loop, (delta.loop.map clampLoop).map (·.map LoopPoints.toLoop) = some (some loop) →
      loop.Valid := by
    intro loop found
    rw [Option.map_map] at found
    obtain ⟨original, _, same⟩ := Option.map_eq_some_iff.mp found
    obtain ⟨points, kept, rfl⟩ := Option.map_eq_some_iff.mp same
    exact clampLoop_valid kept
  by_cases placed : delta.playing = some true ∧ delta.positionSeconds = none
  · have shape : manager.prepare delta .own = { delta.clamp with
        positionSeconds := some (manager.getState delta.deck).positionSeconds } := by
      simp [StateManager.prepare, StateDelta.withPosition, StateDelta.clamp, placed]
    rw [shape]
    refine ⟨by simp [StateDelta.empty], trackId, ?_, gain, rate, pitch, loop, fun _ => by
      simp [StateDelta.toChanges]⟩
    rintro value ⟨⟩
    exact sound.positionSeconds
  · have shape : manager.prepare delta .own = delta.clamp := by
      have kept : ¬ (delta.playing = some true ∧ delta.positionSeconds.map clampPosition = none) := by
        rwa [Option.map_eq_none_iff]
      simp only [StateManager.prepare, StateDelta.withPosition, StateDelta.clamp, true_and, kept,
        ↓reduceIte]
    rw [shape]
    refine ⟨?_, trackId, position, gain, rate, pitch, loop, fun starts unplaced => ?_⟩
    · simpa [StateDelta.empty, StateDelta.clamp] using present
    · exact placed ⟨starts, Option.map_eq_none_iff.mp unplaced⟩

theorem publishable_fullResync {state : PlaybackState} (sound : state.Sound) (deck : DeckId) :
    (fullResyncDelta deck state).Publishable where
  present := rfl
  valid := {
    trackId := fun id named => sound.trackId id (Option.some.inj named)
    positionSeconds := by
      rintro value ⟨⟩
      exact sound.positionSeconds
    gain := by
      rintro value ⟨⟩
      exact sound.gain
    playbackRate := by
      rintro value ⟨⟩
      exact sound.playbackRate
    pitchOffsetSemitones := by
      rintro value ⟨⟩
      exact sound.pitchOffsetSemitones
    loop := fun loop given => sound.loop loop (Option.some.inj given)
    starts := fun _ => Option.some_ne_none _ }

theorem publishable_mergeField {pending incoming : StateDelta} (held : pending.Publishable)
    (arrived : incoming.Publishable) : (mergeField pending incoming).Publishable := by
  obtain ⟨present, held⟩ := held
  obtain ⟨_, arrived⟩ := arrived
  have latest {Source Value : Type} (convert : Source → Value) (holds : Value → Prop)
      {first second : Option Source}
      (firstHolds : ∀ value, first.map convert = some value → holds value)
      (secondHolds : ∀ value, second.map convert = some value → holds value) :
      ∀ value, (first.or second).map convert = some value → holds value := by
    cases first with
    | none => simpa using secondHolds
    | some value => simpa using firstHolds
  refine ⟨?_, ?_, ?_, ?_, ?_, ?_, ?_, fun starts unplaced => ?_⟩
  · simp only [StateDelta.empty, Bool.and_eq_false_iff, Option.isNone_eq_false_iff] at present
    simp only [mergeField, StateDelta.empty, Bool.and_eq_false_iff, Option.isNone_eq_false_iff,
      Option.isSome_or, Bool.or_eq_true]
    tauto
  · exact fun id found => latest trackIdOfText (fun value => ∀ id, value = some id →
      Server.isValidTrackId id = true)
      (fun value present id named => arrived.trackId id (present.trans (congrArg some named)))
      (fun value present id named => held.trackId id (present.trans (congrArg some named)))
      (some id) found id rfl
  · intro value found
    rcases Option.or_eq_some_iff.mp found with later | ⟨_, earlier⟩
    · exact arrived.positionSeconds value later
    · exact held.positionSeconds value earlier
  · exact latest _ _ arrived.gain held.gain
  · exact latest _ _ arrived.playbackRate held.playbackRate
  · exact latest _ _ arrived.pitchOffsetSemitones held.pitchOffsetSemitones
  · exact fun loop found => latest (Option.map LoopPoints.toLoop) (fun value => ∀ loop,
      value = some loop → loop.Valid)
      (fun value present loop same => arrived.loop loop (present.trans (congrArg some same)))
      (fun value present loop same => held.loop loop (present.trans (congrArg some same)))
      (some loop) found loop rfl
  · -- Whichever of the two starts playback brings its position along.
    obtain ⟨arrivedUnplaced, heldUnplaced⟩ := Option.or_eq_none_iff.mp unplaced
    rcases Option.or_eq_some_iff.mp starts with arrivedStarts | ⟨_, heldStarts⟩
    · exact arrived.starts arrivedStarts arrivedUnplaced
    · exact held.starts heldStarts heldUnplaced

end Published

section Clients

/-- A message as the client means it. -/
def ClientMessage.asJs (message : ClientMessage) : JsValue := message.toVar.asJs

/-- A message as the server reads it. -/
def ClientMessage.toJs (digits : ℚ → ℚ) (message : ClientMessage) : JsValue :=
  message.toVar.toJs digits

def ClientMessage.Exact (digits : ℚ → ℚ) (message : ClientMessage) : Prop :=
  message.toVar.Exact digits

instance (digits : ℚ → ℚ) (message : ClientMessage) : Decidable (message.Exact digits) :=
  inferInstanceAs (Decidable (message.toVar.Exact digits))

/-- Fifteen decimal places of a number, read as a double. -/
def fifteenPlaces (number : ℚ) : ℚ := BinaryRounding.double (⌊number * 10 ^ 15 + 1 / 2⌋ / 10 ^ 15)

theorem ClientMessage.toJs_of_exact {digits : ℚ → ℚ} {message : ClientMessage}
    (exact : message.Exact digits) : message.toJs digits = message.asJs :=
  Var.toJs_of_exact exact

theorem ClientMessage.toJs_id : ClientMessage.toJs id = ClientMessage.asJs :=
  funext fun _ => ClientMessage.toJs_of_exact fun _ _ => rfl

/-- Nothing waits for the publisher's timer. -/
def ClientApp.Idle (app : ClientApp) : Prop :=
  ∀ deck, app.component.syncPublisher.pending deck = none

/-- A message that a room takes for what it is. -/
def ClientMessage.Publishable : ClientMessage → Prop
  | .delta sent => sent.Publishable
  | .hello _ _ | .claimControl | .releaseControl | .requestSnapshot => True

namespace SyncPublisher

/-- What is pending can be published. -/
def Publishable (publisher : SyncPublisher) : Prop :=
  ∀ deck delta, publisher.pending deck = some delta → delta.Publishable

/-- What is sent can be published, and what is still pending. -/
structure SendsPublishable (sent : SyncPublisher × List StateDelta) : Prop where
  pending : sent.1.Publishable
  sent : ∀ delta ∈ sent.2, delta.Publishable

variable {publisher : SyncPublisher} (publishable : publisher.Publishable) (now : ℚ)

include publishable

theorem send_publishable (deck : DeckId) : SendsPublishable (publisher.send now deck) := by
  unfold send
  cases pending : publisher.pending deck with
  | none => exact ⟨publishable, by simp⟩
  | some delta =>
      refine ⟨?_, by simpa using publishable deck delta pending⟩
      intro other held found
      simp only [Function.update_apply] at found
      split at found
      · cases found
      · exact publishable other held found

theorem flushDeck_publishable (deck : DeckId) :
    SendsPublishable (publisher.flushDeck now deck) := by
  unfold flushDeck
  split
  · exact ⟨publishable, by simp⟩
  · exact send_publishable publishable now deck

theorem timerCallback_publishable : SendsPublishable (publisher.timerCallback now) := by
  have first := flushDeck_publishable publishable now .A
  have second := flushDeck_publishable first.pending now .B
  refine ⟨second.pending, fun delta member => ?_⟩
  rcases List.mem_append.mp member with earlier | later
  · exact first.sent delta earlier
  · exact second.sent delta later

theorem tell_publishable {applied : StateDelta} (valid : applied.Publishable) :
    SendsPublishable (publisher.tell now applied) := by
  unfold tell
  split
  · have merged : ∀ held : SyncPublisher, held.Publishable →
        SendsPublishable (held.maybeSend now applied.deck) := by
      intro held heldPublishable
      unfold maybeSend
      split
      · exact ⟨heldPublishable, by simp⟩
      · exact send_publishable heldPublishable now applied.deck
    apply merged _
    intro other delta found
    simp only [Function.update_apply] at found
    split at found
    · cases found
      cases pending : publisher.pending applied.deck with
      | none => exact valid
      | some held => exact publishable_mergeField (publishable _ held pending) valid
    · exact publishable other delta found
  · exact ⟨publishable, by simp⟩

end SyncPublisher

/-- What holds of a client that nothing but its room and its user has acted on. -/
structure ClientApp.Sound (app : ClientApp) : Prop where
  coherent : app.Coherent
  states : ∀ deck, (app.component.stateManager.getState deck).Sound
  pending : app.component.syncPublisher.Publishable

theorem ClientApp.Sound.initial : ClientApp.Sound {} where
  coherent := .initial
  states := fun _ => sound_default
  pending := by
    intro deck delta pending
    cases pending

namespace ClientApp.Sound

variable {app : ClientApp} (sound : app.Sound) (now : ℚ)

include sound

theorem connect : app.connect.Sound :=
  ⟨⟨sound.coherent.keyed, sound.coherent.connected, sound.coherent.role, sound.coherent.offline⟩,
    sound.states, sound.pending⟩

theorem closed : app.closed.Sound :=
  ⟨⟨sound.coherent.keyed, rfl, rfl, fun _ => ⟨rfl, rfl⟩⟩, sound.states, sound.pending⟩

theorem receive {config : Server.RoomConfig} {frame : Frame} (valid : frame.Valid config) :
    (app.receive frame).Sound := by
  refine ⟨sound.coherent.receive valid, sound_receive sound.states valid, ?_⟩
  have kept : (app.receive frame).component.syncPublisher.pending =
      app.component.syncPublisher.pending := by
    cases frame <;> rfl
  intro deck delta found
  rw [kept] at found
  exact sound.pending deck delta found

theorem tick : (app.step (.tick now)).1.Sound ∧
    ∀ message ∈ (app.step (.tick now)).2, message.Publishable := by
  have flushed := SyncPublisher.timerCallback_publishable sound.pending now
  have coherent := @Coherent.step ⟨[], 0, 0⟩ app sound.coherent (.tick now) trivial
  refine ⟨⟨coherent, sound.states, flushed.pending⟩, fun message member => ?_⟩
  obtain ⟨delta, sent, rfl⟩ := List.mem_map.mp member
  exact flushed.sent delta sent

theorem edit {delta : StateDelta} (named : delta.NamesTrack) :
    (app.step (.edit now delta)).1.Sound ∧
      ∀ message ∈ (app.step (.edit now delta)).2, message.Publishable := by
  have coherent := @Coherent.step ⟨[], 0, 0⟩ app sound.coherent (.edit now delta) trivial
  cases empty : delta.empty with
  | true =>
      rw [ClientApp.step, MainComponent.applyDelta_empty _ now _ empty]
      exact ⟨sound, by simp [ClientApp.withComponent]⟩
  | false =>
      have applied := publishable_prepare (sound.states delta.deck) empty named
      have told := SyncPublisher.tell_publishable sound.pending now applied
      rw [ClientApp.step, MainComponent.applyDelta_own _ now empty] at coherent ⊢
      refine ⟨⟨coherent, fun deck => ?_, told.pending⟩, fun message member => ?_⟩
      · simp only [ClientApp.withComponent, StateManager.getState, Decks.overlay_apply]
        split
        · exact sound_merge (sound.states deck) applied.valid
        · exact sound.states deck
      · obtain ⟨sent, listed, rfl⟩ := List.mem_map.mp member
        exact told.sent sent listed

theorem pushFullResync : ∀ message ∈ app.component.pushFullResync, message.Publishable := by
  simp only [MainComponent.pushFullResync, List.forall_mem_cons]
  exact ⟨publishable_fullResync (sound.states .A) .A,
    publishable_fullResync (sound.states .B) .B, by simp⟩

end ClientApp.Sound

namespace ClientApp

variable (app : ClientApp) (now : ℚ)

/-- A client's own steps send deltas and nothing else. -/
theorem edit_unasked (delta : StateDelta) :
    .requestSnapshot ∉ (app.step (.edit now delta)).2 := by
  cases empty : delta.empty with
  | true =>
      rw [step, MainComponent.applyDelta_empty _ now _ empty]
      simp [withComponent]
  | false =>
      rw [step, MainComponent.applyDelta_own _ now empty]
      simp [withComponent]

theorem tick_unasked : .requestSnapshot ∉ (app.step (.tick now)).2 := by
  simp [step, withComponent, MainComponent.publisherTick]

end ClientApp

end Clients

end DjApp.Client
