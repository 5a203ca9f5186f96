import DjApp.Server.Config
import DjApp.Server.Crowd
import DjApp.Server.FrameBounds

/-! Of the rooms that a configuration admits, which are too large for their own welcome. -/

set_option autoImplicit false

namespace DjApp.Server

open Library
open Library.BinaryRounding (double)

/-- Every frame that the room sends is small enough to be put on the wire. -/
def FramesFit (config : RoomConfig) : Prop :=
  ∀ calls, ∀ row ∈ roomTrace config calls, ∀ conn frame,
    .send conn frame ∈ row.output.effects → frame.bytes ≤ maxFrameBytes

/-- A valid hello to a room with a free place, if an id is found for it, is answered with a
welcome that fits. -/
def HelloWelcomed (config : RoomConfig) : Prop :=
  ∀ calls conn msg draws hello id,
    (runRoom config calls).conns conn = none →
    validateHello msg ⟨config.protocolVersion, config.roomCode⟩ = .ok hello →
    (runRoom config calls).clients.length < config.maxClients →
    (runRoom config calls).allocateClientId draws = some id →
    ∃ role serverSeq decks peers,
      .send conn (.welcome id role serverSeq decks peers) ∈
          ((runRoom config calls).step config (.message conn msg draws)).2.effects ∧
        (Frame.welcome id role serverSeq decks peers).bytes ≤ maxFrameBytes

section Small

variable {config : RoomConfig}

theorem step_validHello {room : Room} {conn : ConnId} {msg : JsValue} {draws : Draws}
    {hello : Hello} {id : ClientId} (unregistered : room.conns conn = none)
    (valid : validateHello msg ⟨config.protocolVersion, config.roomCode⟩ = .ok hello)
    (free : room.clients.length < config.maxClients)
    (allocated : room.allocateClientId draws = some id) :
    room.step config (.message conn msg draws) = welcome room conn id hello.name := by
  obtain ⟨fields, rfl, _⟩ := validateHello_ok_fields valid
  have typed := (validateHello_ok valid).1
  have plain : isPlainObject (.obj fields) = true := rfl
  simp only [Room.step, handleMessage, plain, unregistered, typed, handleHello, valid, allocated,
    not_le.mpr free, Bool.not_true, Bool.false_eq_true, Option.isNone_none, ↓reduceIte]

theorem mem_welcome (room : Room) (conn : ConnId) (id : ClientId) (name : JsString) :
    .send conn (.welcome id ((room.register conn id name).roleOfId id)
        (room.register conn id name).serverSeq (room.register conn id name).decks
        ((room.register conn id name).peersFor conn)) ∈ (welcome room conn id name).2.effects :=
  List.mem_cons_self

theorem framesFit_of_le (small : config.maxClients ≤ 23) : FramesFit config :=
  fun _ _ member _ _ sent => roomTrace_bytes_le small member sent

/-- Any call may come next after any run. -/
theorem FramesFit.step (fit : FramesFit config) {calls : List Call} {call : Call} {conn : ConnId}
    {frame : Frame} (sent : .send conn frame ∈ ((runRoom config calls).step config call).2.effects) :
    frame.bytes ≤ maxFrameBytes := by
  have row : Machine.entry (Room.step config) (runRoom config calls) call ∈
      roomTrace config (calls ++ [call]) := by
    rw [roomTrace, Machine.trace_concat]
    exact List.mem_append_right _ (List.mem_singleton_self _)
  exact fit _ _ row conn frame sent

theorem helloWelcomed_of_framesFit (fit : FramesFit config) : HelloWelcomed config := by
  intro calls conn msg draws hello id unregistered valid free allocated
  have sent := mem_welcome (runRoom config calls) conn id hello.name
  rw [← step_validHello unregistered valid free allocated] at sent
  exact ⟨_, _, _, _, sent, fit.step sent⟩

end Small

section Wide

/-- A name of as many bytes as one can have. -/
def wideName : JsString := List.replicate nameMaxLength 0x3042

theorem validName_wideName : ValidName wideName :=
  ⟨by decide, by decide, by decide +kernel, by decide +kernel⟩

def wideTrackId : JsString := List.replicate 64 0x61

/-- Numbers with many digits in every field. -/
def wideChanges : Changes where
  trackId := some (some wideTrackId)
  playing := some false
  positionSeconds := some (double (1 / 3))
  gain := some (double (1 / 3))
  playbackRate := some (double (4 / 3))
  pitchOffsetSemitones := some (double (-1 / 3))
  loop := some (some ⟨double (1 / 3), double (2 / 3)⟩)
  repeats := some false

def deltaMessage (deck : DeckId) (changes : Changes) : JsValue :=
  object [("type", text "delta"), ("deck", text deck.text),
    ("changes", object (changesFields changes))]

theorem validateDelta_wideChanges (deck : DeckId) :
    validateEnvelope (deltaMessage deck wideChanges) = .ok .delta ∧
      validateDelta (deltaMessage deck wideChanges) = .ok (deck, wideChanges) := by
  cases deck <;> exact ⟨by decide +kernel, by decide +kernel⟩

theorem step_wideChanges (config : RoomConfig) {room : Room} {conn : ConnId}
    {registration : Registration} (member : IsMember room conn registration)
    (controls : room.controllerId = some registration.id) (deck : DeckId) (draws : Draws) :
    (room.step config (.message conn (deltaMessage deck wideChanges) draws)).1 =
      applyDelta room deck wideChanges := by
  obtain ⟨typed, accepted⟩ := validateDelta_wideChanges deck
  have plain : isPlainObject (deltaMessage deck wideChanges) = true := rfl
  have live : room.isMember conn = true := (isMember_eq_true_iff member.registered).mpr member
  simp [Room.step, handleMessage, plain, typed, accepted, handleDelta, member.registered, live,
    controls]

/-- The room that a crowd finds once both decks have been set by their controller. -/
def wideRoom : Room :=
  applyDelta (applyDelta { createRoom with controllerId := some (crowdId 0) } .A wideChanges) .B
    wideChanges

/-- Twenty-three clients join, the first takes control and sets both decks. -/
def wideCalls (config : RoomConfig) : List Call :=
  crowdCalls config (fun _ => wideName) 0 23 ++
    [.message 0 claimMessage fun _ => crowdId 0,
      .message 0 (deltaMessage .A wideChanges) fun _ => crowdId 0,
      .message 0 (deltaMessage .B wideChanges) fun _ => crowdId 0]

theorem isMember_crowdRoom (room : Room) (name : ℕ → JsString) {count : ℕ} (some : 0 < count) :
    IsMember (crowdRoom room name count) 0 ⟨crowdId 0, name 0⟩ := by
  refine ⟨by simp [crowdRoom, some], ?_⟩
  obtain ⟨count, rfl⟩ := Nat.exists_eq_succ_of_ne_zero some.ne'
  simp [crowdRoom, List.range_succ_eq_map]

theorem applyDelta_crowdRoom (room : Room) (name : ℕ → JsString) (count : ℕ) (deck : DeckId)
    (changes : Changes) : applyDelta (crowdRoom room name count) deck changes =
      crowdRoom (applyDelta room deck changes) name count := rfl

variable {config : RoomConfig}
  (code : 1 ≤ config.roomCode.length ∧ config.roomCode.length ≤ roomCodeMaxLength)
  (large : 24 ≤ config.maxClients)

include code large

theorem runRoom_wideCalls :
    runRoom config (wideCalls config) = crowdRoom wideRoom (fun _ => wideName) 23 := by
  have joined := @runRoom_crowd config (fun _ => wideName) (fun _ => validName_wideName) code 23
    (by decide) (by omega)
  have member (room : Room) : IsMember (crowdRoom room (fun _ => wideName) 23) 0
      ⟨crowdId 0, wideName⟩ := isMember_crowdRoom room _ (by decide)
  let claimed : Room := { createRoom with controllerId := some (crowdId 0) }
  have first : ((crowdRoom createRoom (fun _ => wideName) 23).step config
      (.message 0 claimMessage fun _ => crowdId 0)).1 = crowdRoom claimed (fun _ => wideName) 23 :=
    congrArg Prod.fst (step_claim config (member createRoom) rfl fun _ => crowdId 0)
  have second := step_wideChanges config (member claimed) rfl .A fun _ => crowdId 0
  have third := step_wideChanges config (member (applyDelta claimed .A wideChanges)) rfl .B
    fun _ => crowdId 0
  rw [wideCalls, runRoom, Machine.run_append, ← runRoom, joined]
  simp only [Machine.run]
  rw [first, second, applyDelta_crowdRoom, third, applyDelta_crowdRoom, wideRoom]

/-- The welcome of the next client. -/
def wideWelcome : Frame :=
  let room := crowdRoom wideRoom (fun _ => wideName) 24
  .welcome (crowdId 23) (room.roleOfId (crowdId 23)) room.serverSeq room.decks (room.peersFor 23)

omit code large in
theorem lt_bytes_wideWelcome : maxFrameBytes < wideWelcome.bytes := by decide +kernel

theorem not_framesFit : ¬ FramesFit config := by
  intro fit
  have answered := crowd_step wideRoom (fun _ => validName_wideName) code
    (by decide : 23 < 2 ^ 16) (by omega)
  have shown := mem_welcome (crowdRoom wideRoom (fun _ => wideName) 23) 23 (crowdId 23) wideName
  rw [← crowdRoom_succ wideRoom fun _ => wideName, ← answered,
    ← runRoom_wideCalls code large] at shown
  exact absurd (fit.step shown) (not_le.mpr lt_bytes_wideWelcome)

end Wide

/-- Every frame can be sent in exactly the rooms of at most twenty-three clients. -/
theorem framesFit_iff (env : Env) (randomUUID : JsString) (uuid : randomUUID.length = 36)
    (config : Config) (loaded : loadConfig env randomUUID = .ok config) :
    FramesFit config.room ∧ HelloWelcomed config.room ↔ config.maxClients ≤ 23 := by
  obtain ⟨clients, code⟩ := loadConfig_ok uuid loaded
  constructor
  · rintro ⟨fit, _⟩
    by_contra crowded
    refine not_framesFit code ?_ fit
    simp only [Config.room]
    omega
  · intro small
    have fit : FramesFit config.room := by
      apply framesFit_of_le
      simp only [Config.room]
      omega
    exact ⟨fit, helloWelcomed_of_framesFit fit⟩

def someUUID : JsString := js "00000000-0000-4000-8000-000000000000"

theorem framesFit_default :
    ∃ config, loadConfig {} someUUID = .ok config ∧
      FramesFit config.room ∧ HelloWelcomed config.room :=
  ⟨_, rfl, (framesFit_iff {} someUUID (by decide) _ rfl).mpr (by decide)⟩

/-- A room for twenty-four is admitted, and some frame of it is too large. -/
theorem framesFit_false :
    ∃ config, loadConfig { djMaxClients := some (js "24") } someUUID = .ok config ∧
      ¬ FramesFit config.room :=
  ⟨⟨defaultHost, 8765, someUUID, 24, js "info", defaultRateLimit⟩, rfl,
    not_framesFit ⟨by decide, by decide⟩ (by decide)⟩

end DjApp.Server
