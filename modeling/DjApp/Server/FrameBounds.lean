import Mathlib.Algebra.Order.BigOperators.Group.List
import DjApp.Protocol.TextLength
import DjApp.Server.FrameSize
import DjApp.Server.SentFrames

/-! The largest frames a room sends. -/

set_option autoImplicit false

namespace DjApp.Server

open Library
open Json (byteLength quote stringify itemTexts fieldTexts numberText byteLength_quote_letters)

section Values

theorem sum_map_le {Item : Type} {items : List Item} {size : Item → ℕ} {bound : ℕ}
    (each : ∀ item ∈ items, size item ≤ bound) : (items.map size).sum ≤ items.length * bound := by
  have total := List.sum_le_card_nsmul (items.map size) bound (by simpa using each)
  rwa [List.length_map, nsmul_eq_mul, Nat.cast_id] at total

theorem byteLength_number (value : ℚ) :
    byteLength (stringify (.number value)) = byteLength (numberText value) := by
  rw [Json.number, stringify]

theorem byteLength_bool (value : Bool) : byteLength (stringify (.bool value)) ≤ 5 := by
  cases value <;>
  · rw [stringify]
    decide

theorem byteLength_null : byteLength (stringify .null) = 4 := by
  rw [stringify]
  decide

theorem isTrackIdUnit_plain {unit : UInt16} (listed : isTrackIdUnit unit = true) :
    0x20 ≤ unit.toNat ∧ unit.toNat < 0x7F ∧ unit.toNat ≠ 0x22 ∧ unit.toNat ≠ 0x5C := by
  simp only [isTrackIdUnit, Bool.or_eq_true, Bool.and_eq_true, decide_eq_true_eq,
    beq_iff_eq] at listed
  omega

theorem byteLength_trackIdToJson {trackId : Option JsString}
    (valid : ∀ id, trackId = some id → isValidTrackId id = true) :
    byteLength (stringify (trackIdToJson trackId)) ≤ 66 := by
  cases trackId with
  | none => exact byteLength_null.trans_le (by decide)
  | some id =>
      have listed := valid id rfl
      simp only [isValidTrackId, matchesTrackIdPattern, Bool.and_eq_true, decide_eq_true_eq,
        List.all_eq_true] at listed
      rw [trackIdToJson, stringify,
        Json.byteLength_quote_plain fun unit member => isTrackIdUnit_plain (listed.1.2 unit member)]
      exact Nat.add_le_add_right listed.1.1.2 2

theorem byteLength_loopToJson {loop : Option Loop} (valid : ∀ bounds, loop = some bounds → bounds.Valid) :
    byteLength (stringify (loopToJson loop)) ≤ 76 := by
  cases loop with
  | none => exact byteLength_null.trans_le (by decide)
  | some bounds =>
      have keys : byteLength (quote (js "inSeconds")) = 11 ∧
          byteLength (quote (js "outSeconds")) = 12 := by
        refine ⟨?_, ?_⟩ <;> exact byteLength_quote_letters (by decide)
      obtain ⟨start, ordered, stop⟩ := valid bounds rfl
      have first := Json.byteLength_numberText_le ⟨start, ordered.le.trans stop⟩
      have last := Json.byteLength_numberText_le ⟨start.trans ordered.le, stop⟩
      rw [loopToJson, byteLength_object (by simp)]
      simp only [List.map_cons, List.map_nil, List.sum_cons, List.sum_nil, byteLength_number,
        keys.1, keys.2]
      omega

theorem byteLength_sequenceNumber (serverSeq : ℕ) :
    byteLength (stringify (sequenceNumber serverSeq)) ≤ 16 := by
  rw [sequenceNumber, byteLength_number]
  exact Json.byteLength_numberText_count (min_le_right _ _)

theorem byteLength_clientId (id : ClientId) : byteLength (stringify (text id.text)) = 8 := by
  have letters : byteLength (Json.quoteCodePoint 'c'.toNat) = 1 ∧
      byteLength (Json.quoteCodePoint '-'.toNat) = 1 :=
    ⟨Json.byteLength_quoteCodePoint_toNat (by decide),
      Json.byteLength_quoteCodePoint_toNat (by decide)⟩
  have small := id.draw.toNat_lt
  rw [stringify_text, Json.byteLength_quote_js, ClientId.text, String.toList_ofList]
  simp only [List.map_cons, List.map_nil, List.sum_cons, List.sum_nil, letters.1, letters.2]
  rw [Json.byteLength_quoteCodePoint_digit (by omega), Json.byteLength_quoteCodePoint_digit (by omega),
    Json.byteLength_quoteCodePoint_digit (by omega), Json.byteLength_quoteCodePoint_digit (by omega)]
  rfl

theorem byteLength_role (role : Role) :
    byteLength (stringify (text role.text)) = if role = .controller then 12 else 10 := by
  cases role <;> exact byteLength_text (by decide)

theorem byteLength_name {name : JsString} (valid : ValidName name) :
    byteLength (stringify (.str name)) ≤ 98 := by
  have printable : ∀ codePoint ∈ Utf16.codePoints name, 0x20 ≤ codePoint := by
    intro codePoint member
    have plain := valid.printable
    rw [hasControlChars, List.any_eq_false] at plain
    have control := plain codePoint member
    simp only [isControlChar, Bool.or_eq_true, decide_eq_true_eq, not_or] at control
    omega
  have bounded : name.length ≤ 32 := valid.bounded
  rw [stringify]
  exact (Json.byteLength_quote_le printable valid.wellFormed).trans (by omega)

end Values

section Decks

/-- The names of a deck's fields, in quotes. -/
theorem byteLength_fieldKeys :
    byteLength (quote (js "trackId")) = 9 ∧ byteLength (quote (js "playing")) = 9 ∧
      byteLength (quote (js "positionSeconds")) = 17 ∧ byteLength (quote (js "gain")) = 6 ∧
      byteLength (quote (js "playbackRate")) = 14 ∧
      byteLength (quote (js "pitchOffsetSemitones")) = 22 ∧
      byteLength (quote (js "loop")) = 6 ∧ byteLength (quote (js "repeat")) = 8 := by
  refine ⟨?_, ?_, ?_, ?_, ?_, ?_, ?_, ?_⟩ <;> exact byteLength_quote_letters (by decide)

theorem byteLength_deckToJson {deck : Deck} (valid : deck.Valid) :
    byteLength (stringify (deckToJson deck)) ≤ 351 := by
  obtain ⟨trackIdKey, playingKey, positionKey, gainKey, rateKey, pitchKey, loopKey, repeatKey⟩ :=
    byteLength_fieldKeys
  have trackId := byteLength_trackIdToJson valid.trackId
  have playing := byteLength_bool deck.playing
  have position := Json.byteLength_numberText_le valid.positionSeconds
  have gain := Json.byteLength_numberText_le
    ⟨valid.gain.1, valid.gain.2.trans (by norm_num [FieldRange.gain])⟩
  have rate := Json.byteLength_numberText_rate valid.playbackRate
  have pitch := @Json.byteLength_numberText_le_of_abs deck.pitchOffsetSemitones
    ⟨le_trans (by norm_num [FieldRange.pitchOffsetSemitones]) valid.pitchOffsetSemitones.1,
      valid.pitchOffsetSemitones.2.trans (by norm_num [FieldRange.pitchOffsetSemitones])⟩
  have loop := byteLength_loopToJson valid.loop
  have repeats := byteLength_bool deck.repeats
  rw [deckToJson, byteLength_object (by simp)]
  simp only [List.map_cons, List.map_nil, List.sum_cons, List.sum_nil, byteLength_number,
    trackIdKey, playingKey, positionKey, gainKey, rateKey, pitchKey, loopKey, repeatKey]
  omega

theorem byteLength_decksToJson {decks : List (DeckId × Deck)} (valid : DecksValid decks) :
    byteLength (stringify (decksToJson decks)) ≤ 713 := by
  have names (deck : DeckId) : byteLength (quote (js deck.text)) = 3 := by
    cases deck <;> exact byteLength_quote_letters (by decide)
  have each : ∀ deck ∈ decks, byteLength (stringify (deckToJson deck.2)) ≤ 351 :=
    fun deck member => byteLength_deckToJson (valid.valid deck member)
  have few : decks.length ≤ 2 := by
    have lengths := valid.keys.imp (congrArg List.length) (congrArg List.length)
    simp only [List.length_map, List.length_cons, List.length_nil] at lengths
    omega
  have some : decks ≠ [] := by
    rintro rfl
    simpa using valid.keys
  rw [decksToJson, byteLength_object (by simpa using some), List.map_map]
  have total := @sum_map_le _ decks ((fun field : String × JsValue =>
    byteLength (quote (js field.1)) + byteLength (stringify field.2) + 2) ∘
      fun deck => (deck.1.text, deckToJson deck.2)) 356 (by
    intro deck member
    have own := each deck member
    simp only [Function.comp_apply, names]
    omega)
  omega

end Decks

section Peers

/-- At most one of the peers is the controller. -/
def OneController (peers : List Peer) : Prop := peers.countP (·.role = .controller) ≤ 1

theorem oneController_peersFor {config : RoomConfig} {room : Room} (valid : room.Valid config)
    (conn : ConnId) : OneController (room.peersFor conn) := by
  have roles : ∀ peer ∈ room.peersFor conn, peer.role = .controller →
      room.controllerId = some peer.clientId := by
    intro peer member controls
    obtain ⟨client, _, found⟩ := List.mem_filterMap.mp member
    split at found
    · cases found
    · obtain ⟨registration, _, rfl⟩ := Option.map_eq_some_iff.mp found
      by_contra other
      rw [Room.roleOfId, if_neg other] at controls
      cases controls
  cases holder : room.controllerId with
  | none =>
      refine (List.countP_eq_zero.mpr fun peer member controls => ?_).trans_le (Nat.zero_le 1)
      have held := roles peer member (of_decide_eq_true controls)
      rw [holder] at held
      cases held
  | some id =>
      calc (room.peersFor conn).countP (·.role = .controller)
          ≤ (room.peersFor conn).countP (·.clientId = id) := by
            apply List.countP_mono_left
            intro peer member controls
            have held := roles peer member (of_decide_eq_true controls)
            rw [holder] at held
            exact decide_eq_true (Option.some.inj held).symm
        _ = ((room.peersFor conn).map (·.clientId)).count id := by
            rw [List.count, List.countP_map]
            apply List.countP_congr
            intro peer _
            simp
        _ ≤ 1 := List.nodup_iff_count_le_one.mp (distinct_peersFor valid conn) id

theorem byteLength_peerToJson {peer : Peer} (named : ValidName peer.name) :
    byteLength (stringify (peerToJson peer)) + 1 ≤
      146 + 2 * if peer.role = .controller then 1 else 0 := by
  have keys : byteLength (quote (js "clientId")) = 10 ∧ byteLength (quote (js "name")) = 6 ∧
      byteLength (quote (js "role")) = 6 := by
    refine ⟨?_, ?_, ?_⟩ <;> exact byteLength_quote_letters (by decide)
  obtain ⟨idKey, nameKey, roleKey⟩ := keys
  have name := byteLength_name named
  rw [peerToJson, byteLength_object (by simp)]
  simp only [List.map_cons, List.map_nil, List.sum_cons, List.sum_nil, byteLength_clientId,
    byteLength_role, idKey, nameKey, roleKey]
  split <;> omega

theorem sum_peers_le {peers : List Peer} (named : ∀ peer ∈ peers, ValidName peer.name) :
    (peers.map fun peer => byteLength (stringify (peerToJson peer)) + 1).sum ≤
      146 * peers.length + 2 * peers.countP (·.role = .controller) := by
  induction peers with
  | nil => simp
  | cons peer rest ih =>
      obtain ⟨first, others⟩ := List.forall_mem_cons.mp named
      have own := byteLength_peerToJson first
      have later := ih others
      rw [List.map_cons, List.sum_cons, List.length_cons, List.countP_cons]
      simp only [decide_eq_true_eq]
      split at own <;> simp_all <;> omega

theorem byteLength_peers {peers : List Peer} (named : ∀ peer ∈ peers, ValidName peer.name)
    (one : OneController peers) :
    byteLength (stringify (.arr (peers.map peerToJson))) ≤ 146 * peers.length + 3 := by
  cases peers with
  | nil =>
      rw [List.map_nil, stringify, itemTexts]
      decide
  | cons peer rest =>
      have total := sum_peers_le named
      unfold OneController at one
      rw [Json.byteLength_arr (by simp), List.map_map]
      simp only [Function.comp_def]
      omega

end Peers

section Frames

theorem changesFields_bounds {changes : Changes} (valid : changes.Valid) :
    (changesFields changes).length ≤ 8 ∧ ∀ field ∈ changesFields changes,
      byteLength (quote (js field.1)) + byteLength (stringify field.2) + 2 ≤ 100 := by
  obtain ⟨trackIdKey, playingKey, positionKey, gainKey, rateKey, pitchKey, loopKey, repeatKey⟩ :=
    byteLength_fieldKeys
  have single {Value : Type} (field : Option Value) : field.toList.length ≤ 1 := by
    cases field <;> simp
  constructor
  · have trackId := single changes.trackId
    have playing := single changes.playing
    have repeats := single changes.repeats
    have position := single changes.positionSeconds
    have gain := single changes.gain
    have rate := single changes.playbackRate
    have pitch := single changes.pitchOffsetSemitones
    have loop := single changes.loop
    simp only [changesFields, List.length_append, List.length_map]
    omega
  · intro field member
    simp only [changesFields, List.mem_append, List.mem_map, Option.mem_toList] at member
    rcases member with ((((((⟨trackId, found, rfl⟩ | ⟨playing, found, rfl⟩) |
      ⟨repeats, found, rfl⟩) | ⟨value, found, rfl⟩) | ⟨value, found, rfl⟩) |
      ⟨value, found, rfl⟩) | ⟨value, found, rfl⟩) | ⟨loop, found, rfl⟩
    · have size := @byteLength_trackIdToJson trackId fun id same => valid.trackId id (same ▸ found)
      dsimp only
      omega
    · have size := byteLength_bool playing
      dsimp only
      omega
    · have size := byteLength_bool repeats
      dsimp only
      omega
    · have size := Json.byteLength_numberText_le (valid.positionSeconds value found)
      rw [byteLength_number]
      dsimp only
      omega
    · obtain ⟨low, high⟩ := valid.gain value found
      have size := Json.byteLength_numberText_le ⟨low, high.trans (by norm_num [FieldRange.gain])⟩
      rw [byteLength_number]
      dsimp only
      omega
    · have size := Json.byteLength_numberText_rate (valid.playbackRate value found)
      rw [byteLength_number]
      dsimp only
      omega
    · obtain ⟨low, high⟩ := valid.pitchOffsetSemitones value found
      have size := @Json.byteLength_numberText_le_of_abs value
        ⟨le_trans (by norm_num [FieldRange.pitchOffsetSemitones]) low,
          high.trans (by norm_num [FieldRange.pitchOffsetSemitones])⟩
      rw [byteLength_number]
      dsimp only
      omega
    · have size := @byteLength_loopToJson loop fun bounds same => valid.loop bounds (same ▸ found)
      dsimp only
      omega

theorem byteLength_changes {changes : Changes} (valid : changes.Valid) :
    byteLength (stringify (object (changesFields changes))) ≤ 802 := by
  obtain ⟨few, each⟩ := changesFields_bounds valid
  by_cases none : changesFields changes = []
  · rw [none, object, List.map_nil, stringify, fieldTexts]
    decide
  · have total := sum_map_le each
    rw [byteLength_object none]
    omega

theorem bytes_welcome_le {id : ClientId} {serverSeq : ℕ} {decks : List (DeckId × Deck)}
    {peers : List Peer} (decksValid : DecksValid decks)
    (named : ∀ peer ∈ peers, ValidName peer.name) (one : OneController peers) :
    (Frame.welcome id .observer serverSeq decks peers).bytes ≤ 883 + 146 * peers.length := by
  have keys : byteLength (quote (js "type")) = 6 ∧ byteLength (quote (js "clientId")) = 10 ∧
      byteLength (quote (js "role")) = 6 ∧ byteLength (quote (js "serverSeq")) = 11 ∧
      byteLength (quote (js "snapshot")) = 10 ∧ byteLength (quote (js "decks")) = 7 ∧
      byteLength (quote (js "peers")) = 7 ∧ byteLength (quote (js "source")) = 8 := by
    refine ⟨?_, ?_, ?_, ?_, ?_, ?_, ?_, ?_⟩ <;> exact byteLength_quote_letters (by decide)
  obtain ⟨typeKey, idKey, roleKey, seqKey, snapshotKey, decksKey, peersKey, sourceKey⟩ := keys
  have texts : byteLength (stringify (text "welcome")) = 9 ∧
      byteLength (stringify (text sourceUrl)) = 41 := by
    refine ⟨?_, ?_⟩ <;> exact byteLength_text (by decide)
  have seq := byteLength_sequenceNumber serverSeq
  have state := byteLength_decksToJson decksValid
  have others := byteLength_peers named one
  rw [Frame.bytes, Frame.asJson, byteLength_object (by simp)]
  simp only [List.map_cons, List.map_nil, List.sum_cons, List.sum_nil, typeKey, idKey, roleKey,
    seqKey, snapshotKey, decksKey, peersKey, sourceKey, texts.1, texts.2, byteLength_clientId,
    byteLength_role, byteLength_object (List.cons_ne_nil _ _), reduceCtorEq, ↓reduceIte]
  omega

/-- Every frame but a welcome is a quarter of the limit at most. -/
theorem bytes_other_le {config : RoomConfig} {frame : Frame} (valid : frame.Valid config)
    (brief : ∀ code message, frame = .error code message → Brief message)
    (other : ∀ id role serverSeq decks peers, frame ≠ .welcome id role serverSeq decks peers) :
    frame.bytes ≤ 1024 := by
  have keys : byteLength (quote (js "type")) = 6 ∧ byteLength (quote (js "clientId")) = 10 ∧
      byteLength (quote (js "role")) = 6 ∧ byteLength (quote (js "serverSeq")) = 11 ∧
      byteLength (quote (js "name")) = 6 ∧ byteLength (quote (js "decks")) = 7 ∧
      byteLength (quote (js "sourceClientId")) = 16 ∧ byteLength (quote (js "deck")) = 6 ∧
      byteLength (quote (js "changes")) = 9 := by
    refine ⟨?_, ?_, ?_, ?_, ?_, ?_, ?_, ?_, ?_⟩ <;> exact byteLength_quote_letters (by decide)
  obtain ⟨typeKey, idKey, roleKey, seqKey, nameKey, decksKey, sourceKey, deckKey, changesKey⟩ := keys
  have types : byteLength (stringify (text "peerJoined")) = 12 ∧
      byteLength (stringify (text "peerLeft")) = 10 ∧
      byteLength (stringify (text "roleChanged")) = 13 ∧
      byteLength (stringify (text "delta")) = 7 ∧
      byteLength (stringify (text "snapshot")) = 10 := by
    refine ⟨?_, ?_, ?_, ?_, ?_⟩ <;> exact byteLength_text (by decide)
  obtain ⟨joined, left, changed, delta, snapshot⟩ := types
  cases frame with
  | welcome id role serverSeq decks peers => exact absurd rfl (other id role serverSeq decks peers)
  | error code message => exact (bytes_error_le code (brief code message rfl)).trans (by decide)
  | peerLeft id =>
      rw [Frame.bytes, Frame.asJson, byteLength_object (by simp)]
      simp only [List.map_cons, List.map_nil, List.sum_cons, List.sum_nil, typeKey, idKey, left,
        byteLength_clientId]
      decide
  | roleChanged id role =>
      rw [Frame.bytes, Frame.asJson, byteLength_object (by simp)]
      simp only [List.map_cons, List.map_nil, List.sum_cons, List.sum_nil, typeKey, idKey, roleKey,
        changed, byteLength_clientId, byteLength_role]
      split <;> decide
  | peerJoined id name role =>
      have size := byteLength_name valid.2
      rw [Frame.bytes, Frame.asJson, byteLength_object (by simp)]
      simp only [List.map_cons, List.map_nil, List.sum_cons, List.sum_nil, typeKey, idKey, roleKey,
        nameKey, joined, byteLength_clientId, byteLength_role]
      split <;> omega
  | snapshot serverSeq decks =>
      have seq := byteLength_sequenceNumber serverSeq
      have state := byteLength_decksToJson valid
      rw [Frame.bytes, Frame.asJson, byteLength_object (by simp)]
      simp only [List.map_cons, List.map_nil, List.sum_cons, List.sum_nil, typeKey, seqKey,
        decksKey, snapshot]
      omega
  | delta serverSeq source deck changes =>
      have seq := byteLength_sequenceNumber serverSeq
      have fields := byteLength_changes valid
      have name : byteLength (stringify (text deck.text)) = 3 := by
        cases deck <;> exact byteLength_quote_letters (by decide)
      rw [Frame.bytes, Frame.asJson, byteLength_object (by simp)]
      simp only [List.map_cons, List.map_nil, List.sum_cons, List.sum_nil, typeKey, seqKey,
        sourceKey, deckKey, changesKey, delta, name, byteLength_clientId]
      omega

end Frames

section Runs

theorem Transition.oneController {config : RoomConfig} {room : Room} {call : Call}
    {handled : Handled} (transition : Transition config room call handled)
    (valid : room.Valid config) {conn : ConnId} {id : ClientId} {role : Role} {serverSeq : ℕ}
    {decks : List (DeckId × Deck)} {peers : List Peer}
    (sent : .send conn (.welcome id role serverSeq decks peers) ∈ handled.2.effects) :
    OneController peers := by
  have after := transition.valid valid
  cases transition with
  | idle call outcome answers noDelta => cases answers _ sent
  | join joining msg draws id name unregistered fresh free validName isHello =>
      rcases List.mem_cons.mp sent with welcomed | announced
      · cases welcomed
        exact oneController_peersFor after conn
      · obtain ⟨_, _, _, same⟩ := mem_broadcast_iff.mp announced
        cases same
  | claim | release | leave | delta =>
      obtain ⟨_, _, _, same⟩ := mem_broadcast_iff.mp sent
      cases same

/-- In a room of at most twenty-three clients every frame fits. -/
theorem roomTrace_bytes_le {config : RoomConfig} (small : config.maxClients ≤ 23)
    {calls : List Call} {row : Entry} (member : row ∈ roomTrace config calls) {conn : ConnId}
    {frame : Frame} (sent : .send conn frame ∈ row.output.effects) :
    frame.bytes ≤ maxFrameBytes := by
  obtain ⟨valid, _⟩ := roomTrace_frames member sent
  obtain ⟨earlier, _, _, shape⟩ := Machine.mem_trace (Room.step config) member
  rw [shape] at sent
  have brief : ∀ code message, frame = .error code message → Brief message := by
    rintro code message rfl
    exact (effectBounds_step config _ row.input).brief conn code message sent
  cases frame with
  | welcome id role serverSeq decks peers =>
      obtain ⟨rfl, decksValid, peersValid⟩ := valid
      have one := (step_transition config _ row.input).oneController
        (runRoom_valid config earlier) sent
      have size := @bytes_welcome_le id serverSeq decks peers decksValid peersValid.named one
      have few := peersValid.bounded
      unfold maxFrameBytes
      omega
  | peerJoined | peerLeft | roleChanged | delta | snapshot | error =>
      exact (bytes_other_le valid brief (by simp)).trans (by decide)

end Runs

end DjApp.Server
