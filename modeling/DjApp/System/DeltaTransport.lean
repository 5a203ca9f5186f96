import DjApp.System.Messages

/-! A delta on its way: from the edit that makes it, by way of the publisher, the server's
checks and the room, to the client of another member. -/

set_option autoImplicit false

namespace DjApp.System

open Library
open Server (ConnId Frame Room RoomConfig Registration IsMember)
open Client (ClientMessage PlaybackState StateDelta StateManager)

/-- A delta that comes from the room: a broadcast one, or a deck of a snapshot. -/
inductive Incoming : StateDelta → Prop where
  | delta (deck : DeckId) (changes : Server.Changes) (valid : changes.Valid) :
      Incoming (.ofChanges deck changes)
  | snapshot (deck : DeckId) (state : Server.Deck) (valid : state.Valid) :
      Incoming (Client.fullResyncDelta deck (.ofDeck state))

/-- The state managers that edits of the user and deltas of the room lead to. -/
inductive Edited : StateManager → Prop where
  | initial : Edited .initial
  | own (manager : StateManager) (delta : StateDelta) (edited : Edited manager)
      (named : delta.NamesTrack) : Edited (manager.applyDelta delta .own).1
  | remote (manager : StateManager) (delta : StateDelta) (edited : Edited manager)
      (incoming : Incoming delta) : Edited (manager.applyDelta delta .remote).1

/-- The deltas a client can send: what the listeners are told of an edit, merges of such
deltas of one deck, and full resyncs. -/
inductive Sendable : StateDelta → Prop where
  | applied (manager : StateManager) (delta : StateDelta) (notification : Client.Notification)
      (edited : Edited manager) (named : delta.NamesTrack)
      (told : (manager.applyDelta delta .own).2 = some notification) :
      Sendable notification.applied
  | merged (pending incoming : StateDelta) (held : Sendable pending) (arrived : Sendable incoming)
      (same : incoming.deck = pending.deck) : Sendable (Client.mergeField pending incoming)
  | resync (manager : StateManager) (deck : DeckId) (edited : Edited manager) :
      Sendable (Client.fullResyncDelta deck (manager.getState deck))

theorem Incoming.prepared {delta : StateDelta} (incoming : Incoming delta) (manager : StateManager) :
    manager.prepare delta .remote = delta ∧ delta.toChanges.Valid := by
  cases incoming with
  | delta deck changes valid =>
      have clamped := Client.clamp_ofChanges valid deck
      exact ⟨by simp [StateManager.prepare, clamped, StateDelta.withPosition],
        Client.valid_ofChanges valid deck⟩
  | snapshot deck state valid =>
      have clamped := Client.clamp_fullResyncDelta (Client.clamp_ofDeck valid) deck
      have published := Client.publishable_fullResync (Client.sound_ofDeck valid) deck
      exact ⟨by simp [StateManager.prepare, clamped, StateDelta.withPosition], published.valid⟩

theorem applyDelta_sound {manager : StateManager} {delta : StateDelta}
    {source : Client.DeltaSource} (sound : ∀ deck, (manager.getState deck).Sound)
    (valid : delta.empty = false → (manager.prepare delta source).toChanges.Valid)
    (deck : DeckId) : (((manager.applyDelta delta source).1).getState deck).Sound := by
  unfold StateManager.applyDelta
  cases present : delta.empty with
  | true => simpa using sound deck
  | false =>
      simp only [Bool.false_eq_true, ↓reduceIte, StateManager.getState, Function.update_apply]
      split
      · exact Client.sound_merge (sound delta.deck) (valid present)
      · exact sound deck

theorem Edited.sound {manager : StateManager} (edited : Edited manager) :
    ∀ deck, (manager.getState deck).Sound := by
  induction edited with
  | initial => exact fun _ => Client.sound_default
  | own manager delta edited named ih =>
      exact applyDelta_sound ih fun present =>
        (Client.publishable_prepare (ih delta.deck) present named).valid
  | remote manager delta edited incoming ih =>
      obtain ⟨prepared, valid⟩ := incoming.prepared manager
      exact applyDelta_sound ih fun _ => prepared.symm ▸ valid

theorem Sendable.publishable {delta : StateDelta} (sendable : Sendable delta) :
    delta.Publishable := by
  induction sendable with
  | applied manager delta notification edited named told =>
      unfold StateManager.applyDelta at told
      cases present : delta.empty with
      | true => simp [present] at told
      | false =>
          simp only [present, Bool.false_eq_true, ↓reduceIte, Option.some.injEq] at told
          subst told
          exact Client.publishable_prepare (edited.sound delta.deck) present named
  | merged pending incoming held arrived same heldIH arrivedIH =>
      exact Client.publishable_mergeField heldIH arrivedIH
  | resync manager deck edited => exact Client.publishable_fullResync (edited.sound deck) deck

/-- The fields of a delta, as another client reads them off the room's broadcast. -/
def Arrives (delta : StateDelta) : Prop :=
  ∀ serverSeq source,
    Client.parseDeltaMessage (Frame.delta serverSeq source delta.deck delta.toChanges).toVar =
      .ok delta

/-- A deck with what the room stores of a delta: the fields that it has, as it has them. -/
structure Stored (delta : StateDelta) (before after : Server.Deck) : Prop where
  trackId : after.trackId = (delta.trackId.map Client.trackIdOfText).getD before.trackId
  playing : after.playing = delta.playing.getD before.playing
  positionSeconds : after.positionSeconds = delta.positionSeconds.getD before.positionSeconds
  gain : after.gain = (delta.gain.map (·.value)).getD before.gain
  playbackRate : after.playbackRate = (delta.playbackRate.map (·.value)).getD before.playbackRate
  pitchOffsetSemitones : after.pitchOffsetSemitones =
    (delta.pitchOffsetSemitones.map (·.value)).getD before.pitchOffsetSemitones
  loop : after.loop =
    (delta.loop.map (·.map fun points => ⟨points.inSeconds, points.outSeconds⟩)).getD before.loop
  repeats : after.repeats = delta.repeats.getD before.repeats

/-- What becomes of a delta that the controller sends to a room: it is stored in its deck
alone, and broadcast once to each of the others. -/
structure Relayed (delta : StateDelta) (conn : ConnId) (source : Server.ClientId) (room : Room)
    (handled : Server.Handled) : Prop where
  accepted : handled.2.result.ok = true
  stored : ∃ after, handled.1.decks.lookup delta.deck = some after ∧
    Stored delta ((room.decks.lookup delta.deck).getD Server.Replica.fieldDefaults) after
  apart : ∀ deck ≠ delta.deck, handled.1.decks.lookup deck = room.decks.lookup deck
  told : Server.Told room conn (.delta (room.serverSeq + 1) source delta.deck delta.toChanges)
    handled.2.effects

theorem relayed_applyDelta {config : RoomConfig} {room : Room} (valid : room.Valid config)
    (delta : StateDelta) (conn : ConnId) (source : Server.ClientId) :
    Relayed delta conn source room (Server.applyDelta room delta.deck delta.toChanges,
      ⟨(Server.applyDelta room delta.deck delta.toChanges).broadcast
          (.delta (room.serverSeq + 1) source delta.deck delta.toChanges) (some conn),
        { ok := true }⟩) where
  accepted := rfl
  stored := by
    refine ⟨_, (Server.lookup_writeDeck _ _ _ _).trans (if_pos rfl), ?_⟩
    exact ⟨rfl, rfl, rfl, rfl, rfl, rfl, rfl, rfl⟩
  apart deck other := (Server.lookup_writeDeck _ _ _ _).trans (if_neg other)
  told := by
    refine (Server.told_iff valid).mpr fun target =>
      (Server.framesTo_broadcast valid.distinctConns _ _ target).trans ?_
    exact if_congr (and_congr_right' (Option.some_inj.not)) rfl rfl

/-- Every delta that a client can send passes the server's check, is what the controller's
room stores and broadcasts, and arrives at a peer as it was sent, as long as the digits of
its numbers stand for them. -/
theorem delta_arrives (digits : ℚ → ℚ) (delta : StateDelta) (sendable : Sendable delta)
    (exact : (ClientMessage.delta delta).Exact digits) :
    Server.validateDelta ((Client.buildDelta delta).toJs digits) =
        .ok (delta.deck, delta.toChanges) ∧
      (∀ config calls conn registration draws,
        IsMember (Server.runRoom config calls) conn registration →
        (Server.runRoom config calls).controllerId = some registration.id →
          Relayed delta conn registration.id (Server.runRoom config calls)
            ((Server.runRoom config calls).step config
              (.message conn ((ClientMessage.delta delta).toJs digits) draws))) ∧
      Arrives delta ∧ (delta.playing = some true → delta.positionSeconds.isSome = true) := by
  have publishable := sendable.publishable
  have meant : (Client.buildDelta delta).toJs digits = (Client.buildDelta delta).asJs :=
    ClientMessage.toJs_of_exact exact
  refine ⟨?_, fun config calls conn registration draws member controls => ?_,
    fun serverSeq source => ?_, fun starts => ?_⟩
  · rw [meant]
    exact Client.validateDelta_buildDelta publishable.present publishable.valid
  · rw [ClientMessage.toJs_of_exact exact,
      step_delta_controller config member draws controls publishable]
    exact relayed_applyDelta (Server.runRoom_valid config calls) delta conn registration.id
  · rw [Client.parseDeltaMessage_delta serverSeq source delta.deck publishable.valid,
      Client.ofChanges_toChanges]
  · rw [Option.isSome_iff_ne_none]
    exact publishable.valid.starts starts

/-- Playback started at some point of a track and the loop cleared, in two edits that were
merged. -/
def startedUnlooped : StateDelta where
  deck := .A
  playing := some true
  positionSeconds := some (25 / 2)
  gain := some (.ofDouble (1 / 2))
  loop := some none

/-- An edit that the clamps leave as it is. -/
theorem sendable_of_prepared {manager : StateManager} {delta : StateDelta} (edited : Edited manager)
    (named : delta.NamesTrack) (present : delta.empty = false)
    (prepared : manager.prepare delta .own = delta) : Sendable delta := by
  have told : (manager.applyDelta delta .own).2 =
      some ⟨delta, (manager.getState delta.deck).merge delta, .own⟩ := by
    simp only [StateManager.applyDelta, present, prepared, Bool.false_eq_true, ↓reduceIte]
  exact .applied manager delta _ edited named told

theorem startedUnlooped_sendable : Sendable startedUnlooped := by
  have started : Sendable
      { deck := .A, playing := some true, positionSeconds := some (25 / 2) } :=
    sendable_of_prepared .initial (by intro text named; cases named) rfl (by decide +kernel)
  have unlooped : Sendable { deck := .A, gain := some (.ofDouble (1 / 2)), loop := some none } :=
    sendable_of_prepared .initial (by intro text named; cases named) rfl (by decide +kernel)
  exact .merged _ _ started unlooped rfl

theorem delta_arrives_merged :
    Server.validateDelta ((Client.buildDelta startedUnlooped).toJs Client.fifteenPlaces) =
        .ok (.A, startedUnlooped.toChanges) ∧
      Client.parseDeltaMessage (Frame.delta 1 ⟨7⟩ .A startedUnlooped.toChanges).toVar =
        .ok startedUnlooped := by
  obtain ⟨validated, _, arrives, _⟩ :=
    delta_arrives Client.fifteenPlaces startedUnlooped startedUnlooped_sendable (by decide +kernel)
  exact ⟨validated, arrives 1 ⟨7⟩⟩

end DjApp.System
