import DjApp.Server.Validate
import DjApp.Library.Machine

/-! The room domain: membership, control ownership, canonical deck state, and what
each protocol message does to them. Sending and closing are effects of a call. -/

set_option autoImplicit false

namespace DjApp.Server

open Library

/-- The identity of a connection object, as opposed to the client id it may carry. -/
abbrev ConnId := Nat

/-- What a welcomed connection object carries; it keeps both after it departs. -/
structure Registration where
  id : ClientId
  name : JsString
  deriving DecidableEq

structure RoomConfig where
  roomCode : JsString
  maxClients : Nat
  protocolVersion : ℤ := Server.protocolVersion

/-- The room and the connection objects it has written to. `clients` is the
map from ids to connections in insertion order. -/
structure Room where
  conns : ConnId → Option Registration
  clients : List (ClientId × ConnId)
  decks : List (DeckId × Deck)
  serverSeq : Nat
  controllerId : Option ClientId

def createRoom : Room where
  conns := fun _ => none
  clients := []
  decks := [(.A, defaultDeckState)]
  serverSeq := 0
  controllerId := none

inductive Effect where
  | send (conn : ConnId) (frame : Frame)
  | close (conn : ConnId) (code : Nat)
  deriving DecidableEq

/-- What `handleMessage` returns. A disconnect returns nothing, which counts as ok. -/
structure HandleResult where
  ok : Bool
  errorCode : Option ErrorCode := none
  deriving DecidableEq

structure Outcome where
  effects : List Effect
  result : HandleResult
  deriving DecidableEq

/-- The bytes drawn by the attempts of one call to `allocateClientId`. -/
abbrev Draws := Nat → ClientId

def clientIdAttempts : Nat := 100

namespace Room

def connId (room : Room) (conn : ConnId) : Option ClientId := (room.conns conn).map (·.id)

def roleOfId (room : Room) (id : ClientId) : Role :=
  if room.controllerId = some id then .controller else .observer

/-- Whether `conn` is the live entry of the map for its own id. -/
def isMember (room : Room) (conn : ConnId) : Bool :=
  match room.conns conn with
  | none => false
  | some registration => room.clients.lookup registration.id == some conn

def broadcast (room : Room) (frame : Frame) (except : Option ConnId := none) : List Effect :=
  (room.clients.map (·.2)).filter (fun conn => some conn != except) |>.map (.send · frame)

def snapshotFrame (room : Room) : Frame := .snapshot room.serverSeq room.decks

/-- The first draw no live client has, within the attempts. -/
def allocateClientId (room : Room) (draws : Draws) : Option ClientId :=
  ((List.range clientIdAttempts).map draws).find? fun id => (room.clients.lookup id).isNone

/-- The entries of a welcome's peer list: everyone but `conn`, in map order. -/
def peersFor (room : Room) (conn : ConnId) : List Peer :=
  room.clients.filterMap fun client =>
    if client.2 = conn then none
    else (room.conns client.2).map fun registration =>
      ⟨registration.id, registration.name, room.roleOfId registration.id⟩

end Room

/-- One handler call: the room after it, and what it sent, closed and returned. -/
abbrev Handled := Room × Outcome

def closeHandshake (room : Room) (conn : ConnId) (code : Nat) : Handled :=
  (room, ⟨[.close conn code], { ok := false }⟩)

def refuse (room : Room) (conn : ConnId) (code : ErrorCode) (message : String) : Handled :=
  (room, ⟨[.send conn (.error code message)], { ok := false, errorCode := some code }⟩)

/-- `HANDSHAKE_CLOSE_CODES[reason] ?? badHandshake`. -/
def handshakeCloseCode (reason : String) : Nat :=
  if reason = "protocol version mismatch" then CloseCode.versionMismatch
  else if reason = "wrong room" then CloseCode.wrongRoom
  else CloseCode.badHandshake

/-- Registers a connection under a fresh id. -/
def Room.register (room : Room) (conn : ConnId) (id : ClientId) (name : JsString) : Room :=
  { room with
    conns := Function.update room.conns conn (some ⟨id, name⟩)
    clients := room.clients ++ [(id, conn)] }

/-- What a hello that passed every check does. -/
def welcome (room : Room) (conn : ConnId) (id : ClientId) (name : JsString) : Handled :=
  let joined := room.register conn id name
  let role := joined.roleOfId id
  (joined,
    ⟨.send conn (.welcome id role joined.serverSeq joined.decks (joined.peersFor conn)) ::
        joined.broadcast (.peerJoined id name role) (some conn),
      { ok := true }⟩)

def handleHello (config : RoomConfig) (room : Room) (conn : ConnId) (msg : JsValue)
    (draws : Draws) : Handled :=
  match validateHello msg ⟨config.protocolVersion, config.roomCode⟩ with
  | .error reason => closeHandshake room conn (handshakeCloseCode reason)
  | .ok hello =>
      -- Capacity is checked only after the hello validates.
      if config.maxClients ≤ room.clients.length then
        closeHandshake room conn CloseCode.roomFull
      else
        match room.allocateClientId draws with
        | none => closeHandshake room conn CloseCode.internalError
        | some id => welcome room conn id hello.name

def handleClaimControl (room : Room) (conn : ConnId) : Handled :=
  match room.conns conn with
  | none => refuse room conn .badMessage "not a room member"
  | some registration =>
      if !room.isMember conn then refuse room conn .badMessage "not a room member"
      else if room.controllerId.isSome then
        refuse room conn .controlTaken "control is already claimed"
      else
        ({ room with controllerId := some registration.id },
          ⟨room.broadcast (.roleChanged registration.id .controller), { ok := true }⟩)

def handleReleaseControl (room : Room) (conn : ConnId) : Handled :=
  match room.conns conn with
  | none => refuse room conn .badMessage "not a room member"
  | some registration =>
      if !room.isMember conn then refuse room conn .badMessage "not a room member"
      else if room.controllerId ≠ some registration.id then
        refuse room conn .notController "only the controller can release control"
      else
        ({ room with controllerId := none },
          ⟨room.broadcast (.roleChanged registration.id .observer), { ok := true }⟩)

/-- `target[field] = value` for every entry of `changes`. -/
def assignChanges (target : Deck) (changes : Changes) : Deck where
  trackId := changes.trackId.getD target.trackId
  playing := changes.playing.getD target.playing
  positionSeconds := changes.positionSeconds.getD target.positionSeconds
  gain := changes.gain.getD target.gain
  playbackRate := changes.playbackRate.getD target.playbackRate
  pitchOffsetSemitones := changes.pitchOffsetSemitones.getD target.pitchOffsetSemitones
  loop := changes.loop.getD target.loop
  repeats := changes.repeats.getD target.repeats

/-- The decks after a write to one of them; a deck not there yet starts from the default. -/
def writeDeck (deck : DeckId) (write : Deck → Deck) : List (DeckId × Deck) → List (DeckId × Deck)
  | [] => [(deck, write defaultDeckState)]
  | (id, state) :: rest =>
      if id = deck then (id, write state) :: rest else (id, state) :: writeDeck deck write rest

def applyDelta (room : Room) (deck : DeckId) (changes : Changes) : Room :=
  { room with
    decks := writeDeck deck (assignChanges · changes) room.decks
    serverSeq := room.serverSeq + 1 }

def handleDelta (room : Room) (conn : ConnId) (msg : JsValue) : Handled :=
  match room.conns conn with
  | none => refuse room conn .badMessage "not a room member"
  | some registration =>
      if !room.isMember conn then refuse room conn .badMessage "not a room member"
      else
        match validateDelta msg with
        | .error reason => refuse room conn .badMessage reason
        | .ok (deck, changes) =>
            if some registration.id ≠ room.controllerId then
              -- Every rejected delta is repaired, since the sender has applied it already.
              (room,
                ⟨[.send conn (.error .notController "only the controller can change playback"),
                    .send conn room.snapshotFrame],
                  { ok := false, errorCode := some .notController }⟩)
            else
              let changed := applyDelta room deck changes
              (changed,
                ⟨changed.broadcast (.delta changed.serverSeq registration.id deck changes)
                    (some conn),
                  { ok := true }⟩)

/-- Always answered, also to a connection that has departed. -/
def handleRequestSnapshot (room : Room) (conn : ConnId) : Handled :=
  (room, ⟨[.send conn room.snapshotFrame], { ok := true }⟩)

def isPlainObject : JsValue → Bool
  | .obj _ => true
  | _ => false

def handleMessage (config : RoomConfig) (room : Room) (conn : ConnId) (msg : JsValue)
    (draws : Draws) : Handled :=
  if !isPlainObject msg then
    if (room.conns conn).isNone then closeHandshake room conn CloseCode.badHandshake
    else refuse room conn .badMessage "not an object"
  else if (room.conns conn).isNone then
    if typeField? msg = some (js "hello") then handleHello config room conn msg draws
    else closeHandshake room conn CloseCode.badHandshake
  else
    match validateEnvelope msg with
    | .error reason => refuse room conn .badMessage reason
    | .ok .hello => refuse room conn .badMessage "already registered"
    | .ok .claimControl => handleClaimControl room conn
    | .ok .releaseControl => handleReleaseControl room conn
    | .ok .delta => handleDelta room conn msg
    | .ok .requestSnapshot => handleRequestSnapshot room conn

/-- The room without the entry of `id`, and without its control. -/
def Room.remove (room : Room) (id : ClientId) : Room :=
  { room with
    clients := room.clients.filter (·.1 != id)
    controllerId := if room.controllerId = some id then none else room.controllerId }

/-- Identity and not only id: a departed connection must not evict the live one
that has drawn its id since. No `roleChanged` is sent for a departing controller. -/
def handleDisconnect (room : Room) (conn : ConnId) : Handled :=
  match room.conns conn with
  | none => (room, ⟨[], { ok := true }⟩)
  | some registration =>
      if room.isMember conn then
        let left := room.remove registration.id
        (left, ⟨left.broadcast (.peerLeft registration.id), { ok := true }⟩)
      else (room, ⟨[], { ok := true }⟩)

/-- The calls the transport makes on the room. -/
inductive Call where
  | message (conn : ConnId) (msg : JsValue) (draws : Draws)
  | disconnect (conn : ConnId)

def Call.conn : Call → ConnId
  | .message conn _ _ => conn
  | .disconnect conn => conn

def Room.step (config : RoomConfig) (room : Room) : Call → Handled
  | .message conn msg draws => handleMessage config room conn msg draws
  | .disconnect conn => handleDisconnect room conn

/-- One row of a room's history. -/
abbrev Entry := Machine.Entry Room Call Outcome

def runRoom (config : RoomConfig) (calls : List Call) : Room :=
  Machine.run (Room.step config) createRoom calls

def roomTrace (config : RoomConfig) (calls : List Call) : List Entry :=
  Machine.trace (Room.step config) createRoom calls

end DjApp.Server
