import DjApp.Server.ReplicaFrames

/-! A run that fills a room: one hello after the other, each from a connection of its own. -/

set_option autoImplicit false

namespace DjApp.Server

open Library

def crowdId (index : ℕ) : ClientId := ⟨UInt16.ofNat index⟩

def helloCall (config : RoomConfig) (name : JsString) (index : ℕ) : Call :=
  .message index (helloMessage config.protocolVersion name config.roomCode) fun _ => crowdId index

/-- The hellos of `count` clients, from the `first`-th on. -/
def crowdCalls (config : RoomConfig) (name : ℕ → JsString) (first count : ℕ) : List Call :=
  (List.range' first count).map fun index => helloCall config (name index) index

/-- A room with `count` clients, in all else as it was. -/
def crowdRoom (room : Room) (name : ℕ → JsString) (count : ℕ) : Room :=
  { room with
    conns := fun conn => if conn < count then some ⟨crowdId conn, name conn⟩ else none
    clients := (List.range count).map fun index => (crowdId index, index) }

theorem crowdId_inj {left right : ℕ} (leftSmall : left < 2 ^ 16) (rightSmall : right < 2 ^ 16) :
    crowdId left = crowdId right ↔ left = right := by
  simp only [crowdId, ClientId.mk.injEq]
  constructor
  · intro same
    have values := congrArg UInt16.toNat same
    rw [UInt16.toNat_ofNat_of_lt' leftSmall, UInt16.toNat_ofNat_of_lt' rightSmall] at values
    exact values
  · rintro rfl
    rfl

theorem validateHello_helloMessage {config : RoomConfig} {name : JsString} (named : ValidName name)
    (code : 1 ≤ config.roomCode.length ∧ config.roomCode.length ≤ roomCodeMaxLength) :
    validateHello (helloMessage config.protocolVersion name config.roomCode)
        ⟨config.protocolVersion, config.roomCode⟩ =
      .ok ⟨config.protocolVersion, name, config.roomCode⟩ := by
  have nonempty := named.nonempty
  have bounded := named.bounded
  have printable := named.printable
  have wellFormed := named.wellFormed
  obtain ⟨codeNonempty, codeBounded⟩ := code
  simp [helloMessage, validateHello, validateHelloFields, hasExactKeys, hasField, List.lookup_cons,
    Json.number, not_lt.mpr bounded, printable, wellFormed, not_lt.mpr codeBounded,
    Nat.one_le_iff_ne_zero.mp nonempty, Nat.one_le_iff_ne_zero.mp codeNonempty]

/-- A valid hello to a room with a free place is welcomed under the first id drawn. -/
theorem step_hello {config : RoomConfig} {room : Room} {conn : ConnId} {name : JsString}
    {draws : Draws} (unregistered : room.conns conn = none)
    (free : room.clients.length < config.maxClients)
    (fresh : room.clients.lookup (draws 0) = none) (named : ValidName name)
    (code : 1 ≤ config.roomCode.length ∧ config.roomCode.length ≤ roomCodeMaxLength) :
    room.step config
        (.message conn (helloMessage config.protocolVersion name config.roomCode) draws) =
      welcome room conn (draws 0) name := by
  have plain : isPlainObject (helloMessage config.protocolVersion name config.roomCode) = true := rfl
  have typed : typeField? (helloMessage config.protocolVersion name config.roomCode) =
      some (js "hello") := by
    simp [helloMessage, typeField?]
  have allocated : room.allocateClientId draws = some (draws 0) := by
    rw [Room.allocateClientId, clientIdAttempts, List.range_succ_eq_map, List.map_cons,
      List.find?_cons_of_pos]
    simp [fresh]
  simp only [Room.step, handleMessage, plain, unregistered, typed, handleHello,
    validateHello_helloMessage named code, allocated, not_le.mpr free, Bool.not_true,
    Bool.false_eq_true, Option.isNone_none, ↓reduceIte]

theorem crowdRoom_zero (name : ℕ → JsString) : crowdRoom createRoom name 0 = createRoom := by
  simp [crowdRoom, createRoom]

theorem crowdRoom_succ (room : Room) (name : ℕ → JsString) (count : ℕ) :
    crowdRoom room name (count + 1) =
      (crowdRoom room name count).register count (crowdId count) (name count) := by
  have conns : (fun conn => if conn < count + 1 then
      some (⟨crowdId conn, name conn⟩ : Registration) else none) =
      Function.update (crowdRoom room name count).conns count (some ⟨crowdId count, name count⟩) := by
    funext conn
    rw [Function.update_apply]
    by_cases last : conn = count
    · subst last
      simp
    · have same : conn < count + 1 ↔ conn < count := by omega
      simp [last, same, crowdRoom]
  simp only [crowdRoom, Room.register, List.range_succ, List.map_append, List.map_cons,
    List.map_nil] at conns ⊢
  rw [conns]

theorem crowdRoom_lookup (room : Room) (name : ℕ → JsString) {count : ℕ} (small : count < 2 ^ 16) :
    (crowdRoom room name count).clients.lookup (crowdId count) = none := by
  rw [AssocList.lookup_eq_none_iff_not_mem_keys]
  intro present
  simp only [crowdRoom, List.map_map, List.mem_map, List.mem_range, Function.comp_apply] at present
  obtain ⟨index, earlier, same⟩ := present
  have equal := (crowdId_inj (earlier.trans small) small).mp same
  omega

section Joining

variable {config : RoomConfig} (room : Room) {name : ℕ → JsString}
  (named : ∀ index, ValidName (name index))
  (code : 1 ≤ config.roomCode.length ∧ config.roomCode.length ≤ roomCodeMaxLength)

include named code

theorem crowd_step {count : ℕ} (small : count < 2 ^ 16) (fits : count < config.maxClients) :
    (crowdRoom room name count).step config (helloCall config (name count) count) =
      welcome (crowdRoom room name count) count (crowdId count) (name count) :=
  step_hello (by simp [crowdRoom]) (by simpa [crowdRoom] using fits)
    (crowdRoom_lookup room name small) (named count) code

theorem run_crowd {first count : ℕ} (small : first + count ≤ 2 ^ 16)
    (fits : first + count ≤ config.maxClients) :
    Machine.run (Room.step config) (crowdRoom room name first)
        (crowdCalls config name first count) = crowdRoom room name (first + count) := by
  induction count with
  | zero => rfl
  | succ count ih =>
      have joined := crowd_step room named code (by omega : first + count < 2 ^ 16) (by omega)
      rw [crowdCalls, List.range'_concat, Nat.one_mul, List.map_append, List.map_cons, List.map_nil,
        Machine.run_concat, ← crowdCalls, ih (by omega) (by omega), joined, ← Nat.add_assoc,
        crowdRoom_succ]
      rfl

theorem runRoom_crowd {count : ℕ} (small : count ≤ 2 ^ 16) (fits : count ≤ config.maxClients) :
    runRoom config (crowdCalls config name 0 count) = crowdRoom createRoom name count := by
  have run := run_crowd createRoom named code (by omega : 0 + count ≤ 2 ^ 16) (by omega)
  rw [crowdRoom_zero, Nat.zero_add] at run
  exact run

/-- The first client hears its own welcome, and then of everyone after it. -/
theorem framesOf_crowd {count : ℕ} (small : count + 1 ≤ 2 ^ 16)
    (fits : count + 1 ≤ config.maxClients) :
    framesOf 0 (roomTrace config (crowdCalls config name 0 (count + 1))) =
      .welcome (crowdId 0) .observer 0 [(.A, defaultDeckState)] [] ::
        (List.range' 1 count).map fun index =>
          .peerJoined (crowdId index) (name index) .observer := by
  induction count with
  | zero =>
      have joined := crowd_step createRoom named code (by omega : 0 < 2 ^ 16) (by omega)
      rw [crowdRoom_zero] at joined
      have distinct : ((createRoom.register 0 (crowdId 0) (name 0)).clients.map (·.2)).Nodup := by
        simp [Room.register, createRoom]
      simp only [roomTrace, crowdCalls, Nat.zero_add, List.range'_one, List.map_cons, List.map_nil, Machine.trace,
        Machine.entry, framesOf, List.flatMap_cons, List.flatMap_nil, List.append_nil, joined,
        framesTo_welcome distinct]
      rfl
  | succ count ih =>
      have joined := crowd_step createRoom named code (by omega : count + 1 < 2 ^ 16) (by omega)
      have before := runRoom_crowd named code (by omega : count + 1 ≤ 2 ^ 16) (by omega)
      have valid := runRoom_valid config (crowdCalls config name 0 (count + 1 + 1))
      rw [runRoom_crowd named code (by omega) (by omega), crowdRoom_succ] at valid
      have split : crowdCalls config name 0 (count + 1 + 1) =
          crowdCalls config name 0 (count + 1) ++
            [helloCall config (name (count + 1)) (count + 1)] := by
        simp [crowdCalls, List.range'_concat]
      let crowd := crowdRoom createRoom name (count + 1)
      have heard : framesTo 0 (welcome crowd (count + 1) (crowdId (count + 1))
          (name (count + 1))).2.effects =
          [.peerJoined (crowdId (count + 1)) (name (count + 1)) .observer] := by
        have announced := framesTo_broadcast valid.distinctConns (.peerJoined (crowdId (count + 1))
          (name (count + 1)) .observer) (some (count + 1)) 0
        have present : 0 ∈ ((crowdRoom createRoom name (count + 1)).register (count + 1)
            (crowdId (count + 1)) (name (count + 1))).clients.map (·.2) := by
          simp [crowdRoom, Room.register]
        rw [if_pos ⟨present, by simp⟩] at announced
        exact (framesTo_welcome_other (Nat.succ_ne_zero count)).trans announced
      rw [split, roomTrace, Machine.trace_concat, ← roomTrace, ← runRoom, framesOf_concat,
        ih (by omega) (by omega), before, Machine.entry, joined, heard,
        List.range'_concat, Nat.one_mul, Nat.add_comm 1 count]
      simp

end Joining

def claimMessage : JsValue := .obj [(js "type", .str (js MessageType.claimControl.text))]

theorem validateEnvelope_claimMessage : validateEnvelope claimMessage = .ok .claimControl := by
  decide +kernel

theorem step_claim (config : RoomConfig) {room : Room} {conn : ConnId} {registration : Registration}
    (member : IsMember room conn registration) (unclaimed : room.controllerId = none)
    (draws : Draws) :
    room.step config (.message conn claimMessage draws) =
      ({ room with controllerId := some registration.id },
        ⟨room.broadcast (.roleChanged registration.id .controller), { ok := true }⟩) := by
  have plain : isPlainObject claimMessage = true := rfl
  have live : room.isMember conn = true := (isMember_eq_true_iff member.registered).mpr member
  simp [Room.step, handleMessage, plain, validateEnvelope_claimMessage, handleClaimControl,
    member.registered, live, unclaimed]

end DjApp.Server
