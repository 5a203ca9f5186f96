import DjApp.Library.AssocList
import DjApp.Server.RoomTransitions

/-! The room's invariant over whole runs, the atomicity of a rejected message, and
the independence of the room from connections that are not members. -/

set_option autoImplicit false

namespace DjApp.Server

open Library

/-- What holds of the room between any two calls. -/
structure Room.Valid (config : RoomConfig) (room : Room) : Prop where
  capacity : room.clients.length ≤ config.maxClients
  keyed : ∀ client ∈ room.clients, room.connId client.2 = some client.1
  distinctIds : (room.clients.map (·.1)).Nodup
  distinctConns : (room.clients.map (·.2)).Nodup
  controllerLive : ∀ id, room.controllerId = some id → id ∈ room.clients.map (·.1)
  deckKeys : room.decks.map (·.1) = [.A] ∨ room.decks.map (·.1) = [.A, .B]
  decksValid : ∀ deck ∈ room.decks, deck.2.Valid

/-- The deltas accepted along a history, oldest first. -/
def acceptedDeltas (history : List Entry) : List (DeckId × Changes) :=
  history.filterMap fun row => acceptedDelta row.input row.output

/-- What relates the room to the deltas it has accepted. -/
structure Records (history : List Entry) (room : Room) : Prop where
  counted : room.serverSeq = (acceptedDeltas history).length
  deckB : DeckId.B ∈ room.decks.map (·.1) ↔ ∃ changes, (DeckId.B, changes) ∈ acceptedDeltas history

namespace Room

/-- Distinct ids carried by the connections make the connections distinct. -/
private theorem distinctConns_of_keyed {room : Room}
    (keyed : ∀ client ∈ room.clients, room.connId client.2 = some client.1)
    (distinctIds : (room.clients.map (·.1)).Nodup) : (room.clients.map (·.2)).Nodup := by
  have ids : (room.clients.map (·.2)).map room.connId = (room.clients.map (·.1)).map some := by
    simp only [List.map_map]
    exact List.map_congr_left keyed
  apply List.Nodup.of_map room.connId
  rw [ids]
  exact distinctIds.map (Option.some_injective _)

theorem Valid.createRoom (config : RoomConfig) : createRoom.Valid config where
  capacity := by simp [Server.createRoom]
  keyed := by simp [Server.createRoom]
  distinctIds := by simp [Server.createRoom]
  distinctConns := by simp [Server.createRoom]
  controllerLive := by simp [Server.createRoom]
  deckKeys := by simp [Server.createRoom]
  decksValid := by simp [Server.createRoom, defaultDeckState_valid]

variable {config : RoomConfig} {room : Room}

/-- A connection without an id is not in the map. -/
theorem Valid.not_mem_of_unregistered (valid : room.Valid config) {conn : ConnId}
    (unregistered : room.conns conn = none) : conn ∉ room.clients.map (·.2) := by
  intro present
  obtain ⟨client, member, rfl⟩ := List.mem_map.mp present
  have carried := valid.keyed client member
  simp [connId, unregistered] at carried

theorem Valid.register (valid : room.Valid config) {conn : ConnId} {id : ClientId}
    (name : JsString) (unregistered : room.conns conn = none)
    (fresh : room.clients.lookup id = none) (free : room.clients.length < config.maxClients) :
    (room.register conn id name).Valid config := by
  have distinctIds : ((room.register conn id name).clients.map (·.1)).Nodup :=
    AssocList.nodup_keys_concat valid.distinctIds fresh conn
  have keyed : ∀ client ∈ (room.register conn id name).clients,
      (room.register conn id name).connId client.2 = some client.1 := by
    intro client member
    rcases List.mem_append.mp member with earlier | added
    · have other : client.2 ≠ conn := fun same =>
        valid.not_mem_of_unregistered unregistered (List.mem_map.mpr ⟨client, earlier, same⟩)
      have carried := valid.keyed client earlier
      simpa [Room.register, connId, Function.update_of_ne other] using carried
    · obtain rfl := List.mem_singleton.mp added
      simp [Room.register, connId]
  exact {
    capacity := by simpa [Room.register] using Nat.succ_le_of_lt free
    keyed := keyed
    distinctIds := distinctIds
    distinctConns := distinctConns_of_keyed keyed distinctIds
    controllerLive := fun holder holds => by
      simp [Room.register, valid.controllerLive holder holds]
    deckKeys := valid.deckKeys
    decksValid := valid.decksValid }

theorem Valid.setController (valid : room.Valid config) {holder : Option ClientId}
    (live : ∀ id, holder = some id → id ∈ room.clients.map (·.1)) :
    ({ room with controllerId := holder } : Room).Valid config where
  capacity := valid.capacity
  keyed := valid.keyed
  distinctIds := valid.distinctIds
  distinctConns := valid.distinctConns
  controllerLive := live
  deckKeys := valid.deckKeys
  decksValid := valid.decksValid

theorem Valid.remove (valid : room.Valid config) (id : ClientId) :
    (room.remove id).Valid config := by
  have kept : (room.remove id).clients.Sublist room.clients := List.filter_sublist
  exact {
    capacity := kept.length_le.trans valid.capacity
    keyed := fun client member => valid.keyed client (kept.subset member)
    distinctIds := valid.distinctIds.sublist (kept.map _)
    distinctConns := valid.distinctConns.sublist (kept.map _)
    controllerLive := by
      intro holder holds
      simp only [Room.remove] at holds
      split at holds
      · cases holds
      · rename_i other
        obtain ⟨client, member, rfl⟩ := List.mem_map.mp (valid.controllerLive holder holds)
        have stays : client.1 ≠ id := fun same => other (holds.trans (congrArg some same))
        exact List.mem_map_of_mem (List.mem_filter.mpr ⟨member, by simpa using stays⟩)
    deckKeys := valid.deckKeys
    decksValid := valid.decksValid }

end Room

theorem assignChanges_valid {target : Deck} {changes : Changes} (targetValid : target.Valid)
    (changesValid : changes.Valid) : (assignChanges target changes).Valid where
  trackId id present := by
    cases assigned : changes.trackId with
    | none => exact targetValid.trackId id (by simpa [assignChanges, assigned] using present)
    | some trackId =>
        exact changesValid.trackId id (by simpa [assignChanges, assigned] using present)
  positionSeconds := by
    cases assigned : changes.positionSeconds with
    | none => simpa [assignChanges, assigned] using targetValid.positionSeconds
    | some value => simpa [assignChanges, assigned] using changesValid.positionSeconds value assigned
  gain := by
    cases assigned : changes.gain with
    | none => simpa [assignChanges, assigned] using targetValid.gain
    | some value => simpa [assignChanges, assigned] using changesValid.gain value assigned
  playbackRate := by
    cases assigned : changes.playbackRate with
    | none => simpa [assignChanges, assigned] using targetValid.playbackRate
    | some value => simpa [assignChanges, assigned] using changesValid.playbackRate value assigned
  pitchOffsetSemitones := by
    cases assigned : changes.pitchOffsetSemitones with
    | none => simpa [assignChanges, assigned] using targetValid.pitchOffsetSemitones
    | some value =>
        simpa [assignChanges, assigned] using changesValid.pitchOffsetSemitones value assigned
  loop loop present := by
    cases assigned : changes.loop with
    | none => exact targetValid.loop loop (by simpa [assignChanges, assigned] using present)
    | some value =>
        exact changesValid.loop loop (by simpa [assignChanges, assigned] using present)

theorem mem_keys_writeDeck {deck other : DeckId} {write : Deck → Deck}
    {decks : List (DeckId × Deck)} :
    other ∈ (writeDeck deck write decks).map (·.1) ↔ other = deck ∨ other ∈ decks.map (·.1) := by
  induction decks with
  | nil => simp [writeDeck]
  | cons entry rest ih =>
      obtain ⟨id, state⟩ := entry
      by_cases same : id = deck
      · simp [writeDeck, same]
      · simp only [writeDeck, same, ↓reduceIte, List.map_cons, List.mem_cons, ih]
        tauto

theorem keys_writeDeck {deck : DeckId} {write : Deck → Deck} {decks : List (DeckId × Deck)}
    (keys : decks.map (·.1) = [.A] ∨ decks.map (·.1) = [.A, .B]) :
    (writeDeck deck write decks).map (·.1) = [.A] ∨
      (writeDeck deck write decks).map (·.1) = [.A, .B] := by
  rcases keys with keys | keys
  · obtain ⟨⟨id, state⟩, rest, rfl, rfl, nilKeys⟩ := List.map_eq_cons_iff.mp keys
    obtain rfl := List.map_eq_nil_iff.mp nilKeys
    cases deck <;> simp [writeDeck]
  · obtain ⟨⟨id, state⟩, rest, rfl, rfl, restKeys⟩ := List.map_eq_cons_iff.mp keys
    obtain ⟨⟨id, other⟩, last, rfl, rfl, nilKeys⟩ := List.map_eq_cons_iff.mp restKeys
    obtain rfl := List.map_eq_nil_iff.mp nilKeys
    cases deck <;> simp [writeDeck]

theorem writeDeck_forall {deck : DeckId} {write : Deck → Deck} {holds : Deck → Prop}
    (start : holds defaultDeckState) (kept : ∀ state, holds state → holds (write state))
    {decks : List (DeckId × Deck)} (all : ∀ entry ∈ decks, holds entry.2) :
    ∀ entry ∈ writeDeck deck write decks, holds entry.2 := by
  induction decks with
  | nil => simpa [writeDeck] using kept _ start
  | cons entry rest ih =>
      obtain ⟨id, state⟩ := entry
      obtain ⟨head, tail⟩ := List.forall_mem_cons.mp all
      by_cases same : id = deck
      · simp only [writeDeck, same, ↓reduceIte, List.forall_mem_cons]
        exact ⟨kept state head, tail⟩
      · simp only [writeDeck, same, ↓reduceIte, List.forall_mem_cons]
        exact ⟨head, ih tail⟩

theorem Room.Valid.applyDelta {config : RoomConfig} {room : Room} (valid : room.Valid config)
    (deck : DeckId) {changes : Changes} (changesValid : changes.Valid) :
    (applyDelta room deck changes).Valid config where
  capacity := valid.capacity
  keyed := valid.keyed
  distinctIds := valid.distinctIds
  distinctConns := valid.distinctConns
  controllerLive := valid.controllerLive
  deckKeys := keys_writeDeck valid.deckKeys
  decksValid := writeDeck_forall defaultDeckState_valid
    (fun _ stateValid => assignChanges_valid stateValid changesValid) valid.decksValid

theorem IsMember.mem_ids {room : Room} {conn : ConnId} {registration : Registration}
    (member : IsMember room conn registration) : registration.id ∈ room.clients.map (·.1) :=
  List.mem_map.mpr ⟨_, AssocList.mem_of_lookup member.live, rfl⟩

theorem Transition.valid {config : RoomConfig} {room : Room} {call : Call} {handled : Handled}
    (transition : Transition config room call handled) (valid : room.Valid config) :
    handled.1.Valid config := by
  cases transition with
  | idle => exact valid
  | join conn msg draws id name unregistered fresh free named isHello =>
      exact valid.register name unregistered fresh free
  | claim conn msg draws registration member unclaimed isClaim =>
      apply valid.setController
      rintro _ ⟨⟩
      exact member.mem_ids
  | release => exact valid.setController (by simp)
  | delta conn msg draws registration deck changes member controls validated =>
      exact valid.applyDelta deck (validateDelta_ok_valid validated)
  | leave conn registration member => exact valid.remove registration.id

theorem runRoom_valid (config : RoomConfig) (calls : List Call) :
    (runRoom config calls).Valid config :=
  Machine.run_invariant (Room.step config) (Room.Valid config)
    (fun room call valid => (step_transition config room call).valid valid)
    (Room.Valid.createRoom config) calls

@[simp] theorem acceptedDeltas_nil : acceptedDeltas [] = [] := rfl

theorem acceptedDeltas_concat (history : List Entry) (row : Entry) :
    acceptedDeltas (history ++ [row]) =
      acceptedDeltas history ++ (acceptedDelta row.input row.output).toList := by
  simp only [acceptedDeltas, List.filterMap_append, List.filterMap_cons, List.filterMap_nil]
  cases acceptedDelta row.input row.output <;> rfl

/-- The one transition that accepts a delta is the one that moves decks and sequence. -/
theorem Transition.acceptedDelta_cases {config : RoomConfig} {room : Room} {call : Call}
    {handled : Handled} (transition : Transition config room call handled) :
    (acceptedDelta call handled.2 = none ∧ handled.1.decks = room.decks ∧
        handled.1.serverSeq = room.serverSeq) ∨
      ∃ deck changes, acceptedDelta call handled.2 = some (deck, changes) ∧
        handled.1 = applyDelta room deck changes := by
  cases transition with
  | idle call outcome answers noDelta => exact .inl ⟨noDelta, rfl, rfl⟩
  | join conn msg draws id name unregistered fresh free named isHello =>
      exact .inl ⟨acceptedDelta_join isHello, rfl, rfl⟩
  | claim conn msg draws registration member unclaimed isClaim =>
      exact .inl ⟨acceptedDelta_claim isClaim, rfl, rfl⟩
  | release conn msg draws registration member controls isRelease =>
      exact .inl ⟨acceptedDelta_release isRelease, rfl, rfl⟩
  | delta conn msg draws registration deck changes member controls validated =>
      exact .inr ⟨deck, changes, acceptedDelta_delta conn draws validated rfl, rfl⟩
  | leave => exact .inl ⟨rfl, rfl, rfl⟩

theorem Records.step {config : RoomConfig} {history : List Entry} {room : Room} {call : Call}
    {handled : Handled} (transition : Transition config room call handled)
    (records : Records history room) :
    Records (history ++ [⟨room, call, handled.2, handled.1⟩]) handled.1 := by
  rcases transition.acceptedDelta_cases with
    ⟨noDelta, sameDecks, sameSeq⟩ | ⟨deck, changes, accepted, changed⟩
  · have unchanged : acceptedDeltas (history ++ [⟨room, call, handled.2, handled.1⟩]) =
        acceptedDeltas history := by
      simp [acceptedDeltas_concat, noDelta]
    exact ⟨by rw [sameSeq, unchanged]; exact records.counted,
      by rw [sameDecks, unchanged]; exact records.deckB⟩
  · have extended : acceptedDeltas (history ++ [⟨room, call, handled.2, handled.1⟩]) =
        acceptedDeltas history ++ [(deck, changes)] := by
      simp [acceptedDeltas_concat, accepted]
    refine ⟨?_, ?_⟩
    · rw [extended, changed]
      simp [applyDelta, records.counted]
    rw [extended, changed]
    simp only [applyDelta, mem_keys_writeDeck, records.deckB, List.mem_append, List.mem_singleton,
      Prod.mk.injEq]
    constructor
    · rintro (rfl | ⟨other, earlier⟩)
      · exact ⟨changes, .inr ⟨rfl, rfl⟩⟩
      · exact ⟨other, .inl earlier⟩
    · rintro ⟨other, earlier | ⟨rfl, rfl⟩⟩
      · exact .inr ⟨other, earlier⟩
      · exact .inl rfl

theorem runRoom_records (config : RoomConfig) (calls : List Call) :
    Records (roomTrace config calls) (runRoom config calls) :=
  Machine.history_invariant (Room.step config) Records
    ⟨rfl, by simp [createRoom]⟩
    (fun _ room call records => records.step (step_transition config room call)) calls

/-- A call that is not answered with ok leaves the whole room as it was. -/
theorem Transition.rejected {config : RoomConfig} {room : Room} {call : Call} {handled : Handled}
    (transition : Transition config room call handled)
    (rejected : handled.2.result.ok = false) : handled.1 = room := by
  cases transition with
  | idle => rfl
  | join | claim | release | delta | leave => simp [welcome] at rejected

theorem rejected_unchanged (config : RoomConfig) (calls : List Call) :
    ∀ row ∈ roomTrace config calls, row.output.result.ok = false → row.after = row.before := by
  intro row member rejected
  obtain ⟨earlier, _, _, shape⟩ := Machine.mem_trace (Room.step config) member
  rw [shape] at rejected ⊢
  exact (step_transition config _ row.input).rejected rejected

/-- The room invariant and the atomicity of rejected messages. -/
theorem room_invariant (config : RoomConfig) (calls : List Call) :
    (runRoom config calls).Valid config ∧
      Records (roomTrace config calls) (runRoom config calls) ∧
      ∀ row ∈ roomTrace config calls, row.output.result.ok = false → row.after = row.before :=
  ⟨runRoom_valid config calls, runRoom_records config calls, rejected_unchanged config calls⟩

end DjApp.Server
