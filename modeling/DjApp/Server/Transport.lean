import DjApp.Library.AssocList
import DjApp.Server.FrameSize
import DjApp.Server.RateLimit

/-! The transport of the sync server: the record it keeps of each socket, and what the
sockets' events and its timers do to the records and to the room. -/

set_option autoImplicit false

namespace DjApp.Server

open Library

namespace CloseCode

def policyViolation : Nat := 1008
def goingAway : Nat := 1001

end CloseCode

def maxConsecutiveInvalid : ℕ := 3

def preHelloCeilingFactor : ℕ := 4

/-- What the transport keeps of a socket it has accepted. `conn.id` is the room's. A timer
is `true` while it is set. -/
structure ConnectionRecord extends Record where
  helloTimer : Bool := true
  terminateTimer : Bool := false
  pendingHello : Bool := true
  consecutiveInvalid : ℕ := 0
  isAlive : Bool := true

/-- The room is handed to the transport, so its bound may be another than `maxClients`. -/
structure TransportConfig where
  maxClients : ℕ
  rateLimit : RateLimit
  room : RoomConfig

def TransportConfig.preHelloCeiling (config : TransportConfig) : ℤ :=
  config.maxClients * preHelloCeilingFactor

/-- `records` holds the sockets that have not closed yet. -/
structure Transport where
  room : Room
  records : List (ConnId × ConnectionRecord)
  preHelloCount : ℤ
  nextConn : ConnId

/-- What the transport does to the outside, and its calls of the room. -/
inductive Action where
  | closeSocket (conn : ConnId) (code : Nat)
  | refuseSocket (code : Nat)
  | terminate (conn : ConnId)
  | ping (conn : ConnId)
  | transmit (conn : ConnId) (frame : Frame)
  | called (call : Call) (outcome : Outcome)

/-- What `send` finds when it is called. -/
inductive SocketState where
  | notOpen
  | backlogged
  | writable
  | failing

/-- Where a handler of the room throws: before it has changed anything, or in its
broadcast, once it has changed the room. -/
inductive Fault where
  | atOnce
  | after (sent : ℕ)

def Room.attempt (config : RoomConfig) (room : Room) (call : Call) : Option Fault → Handled
  | some .atOnce => (room, ⟨[], { ok := false }⟩)
  | some (.after _) | none => room.step config call

/-- The effects that a call gets to. -/
def Outcome.performed (outcome : Outcome) : Option Fault → List Effect
  | some (.after sent) => outcome.effects.take sent
  | some .atOnce | none => outcome.effects

abbrev Ran := Transport × List Action

def Ran.andThen (ran : Ran) (next : Transport → Ran) : Ran :=
  ((next ran.1).1, ran.2 ++ (next ran.1).2)

namespace Transport

def createServer : Transport := ⟨createRoom, [], 0, 0⟩

variable (transport : Transport) (conn : ConnId)

def update (change : ConnectionRecord → ConnectionRecord) : Transport :=
  { transport with records := AssocList.update conn change transport.records }

/-- `pendingHello` guards the decrement, so that a second release changes nothing. -/
def releaseHelloWatch : Transport :=
  match transport.records.lookup conn with
  | none => transport
  | some record =>
      { transport.update conn ({ · with helloTimer := false, pendingHello := false }) with
        preHelloCount :=
          if record.pendingHello then transport.preHelloCount - 1 else transport.preHelloCount }

def close (code : Nat) : Ran :=
  match transport.records.lookup conn with
  | none => (transport, [])
  | some record =>
      if record.ejected then (transport, [])
      else
        let ejected := transport.update conn ({ · with ejected := true })
        ((ejected.releaseHelloWatch conn).update conn ({ · with terminateTimer := true }),
          [.closeSocket conn code])

section Sending

variable (sockets : ConnId → Frame → SocketState)

def send (frame : Frame) : Ran :=
  match sockets conn frame with
  | .notOpen => (transport, [])
  | .backlogged => (transport, [.terminate conn])
  | .writable | .failing =>
      if maxFrameBytes < frame.bytes then transport.close conn CloseCode.internalError
      else
        match sockets conn frame with
        | .writable => (transport, [.transmit conn frame])
        | _ => (transport, [])

def perform : Effect → Ran
  | .send target frame => transport.send target sockets frame
  | .close target code => transport.close target code

def performAll (transport : Transport) : List Effect → Ran
  | [] => (transport, [])
  | effect :: rest => (transport.perform sockets effect).andThen fun next => next.performAll rest

variable (config : TransportConfig) (fl : ℚ → ℚ)

/-- A call of the room, which may throw. -/
def callRoom (call : Call) (thrown : Option Fault) : Ran :=
  let handled := transport.room.attempt config.room call thrown
  Ran.andThen ({ transport with room := handled.1 }, [.called call handled.2])
    fun next => next.performAll sockets (handled.2.performed thrown)

/-- What a charge does to the connection, the verdict apart. -/
def charge (record : ConnectionRecord) (now : ℤ) : Ran :=
  let charged := Server.charge fl config.rateLimit record.toRecord now
  let kept := transport.update conn ({ · with
    tokens := charged.1.tokens
    lastRefillMs := charged.1.lastRefillMs
    rateLimitedSince := charged.1.rateLimitedSince })
  let warned : Ran := if charged.2.warned then
      kept.send conn sockets (.error .rateLimited "too many messages")
    else (kept, [])
  warned.andThen fun next =>
    if charged.2.banned then next.close conn CloseCode.rateLimitBan else (next, [])

def countInvalid : Ran :=
  match transport.records.lookup conn with
  | none => (transport, [])
  | some record =>
      let counted := transport.update conn ({ · with
        consecutiveInvalid := record.consecutiveInvalid + 1 })
      if record.consecutiveInvalid + 1 < maxConsecutiveInvalid then (counted, [])
      else counted.close conn CloseCode.policyViolation

/-- What an answer of the room costs the connection. -/
def judge (result : HandleResult) : Ran :=
  if result.ok then (transport.update conn ({ · with consecutiveInvalid := 0 }), [])
  else if result.errorCode = some .badMessage then transport.countInvalid conn
  else (transport, [])

/-- A frame that parses; `contain` closes the connection if the room throws. -/
def handleParsed (msg : JsValue) (draws : Draws) (thrown : Option Fault) : Ran :=
  let call := Call.message conn msg draws
  let ran := transport.callRoom sockets config call thrown
  match thrown with
  | some _ => ran.andThen fun next => next.close conn CloseCode.internalError
  | none => ran.andThen fun next =>
      let watched := if (next.room.conns conn).isSome then next.releaseHelloWatch conn else next
      watched.judge conn (transport.room.step config.room call).2.result

def handleMalformed : Ran :=
  if (transport.room.conns conn).isNone then transport.close conn CloseCode.badHandshake
  else
    (transport.send conn sockets (.error .badMessage "malformed json")).andThen
      fun next => next.countInvalid conn

/-- A served text frame, `none` if it is not JSON. -/
def serve (parsed : Option JsValue) (draws : Draws) (thrown : Option Fault) : Ran :=
  match parsed with
  | none => transport.handleMalformed conn sockets
  | some msg => transport.handleParsed conn sockets config msg draws thrown

def onText (now : ℤ) (parsed : Option JsValue) (draws : Draws) (thrown : Option Fault) : Ran :=
  match transport.records.lookup conn with
  | none => (transport, [])
  | some record =>
      if record.ejected then (transport, [])
      else
        (transport.charge conn sockets config fl record now).andThen fun next =>
          if (Server.charge fl config.rateLimit record.toRecord now).2.served then
            next.serve conn sockets config parsed draws thrown
          else (next, [])

def onBinary : Ran :=
  match transport.records.lookup conn with
  | none => (transport, [])
  | some record =>
      if record.ejected then (transport, [])
      else transport.close conn CloseCode.policyViolation

/-- A ping, or with `alive` a pong. -/
def onControl (now : ℤ) (alive : Bool) : Ran :=
  match transport.records.lookup conn with
  | none => (transport, [])
  | some record =>
      if record.ejected then (transport, [])
      else
        (transport.update conn fun record =>
          { record with isAlive := alive || record.isAlive }).charge conn sockets config fl record now

def onHelloTimeout : Ran :=
  match transport.records.lookup conn with
  | none => (transport, [])
  | some record =>
      if !record.helloTimer then (transport, [])
      else
        let fired := transport.update conn ({ · with helloTimer := false })
        if (transport.room.conns conn).isSome then (fired, [])
        else fired.close conn CloseCode.badHandshake

def onTerminateTimeout : Ran :=
  match transport.records.lookup conn with
  | none => (transport, [])
  | some record => (transport, if record.terminateTimer then [.terminate conn] else [])

/-- The teardown of a socket; its timers go with its record. -/
def onClose : Ran :=
  match transport.records.lookup conn with
  | none => (transport, [])
  | some _ =>
      let released := transport.releaseHelloWatch conn
      let removed := { released with records := released.records.filter (·.1 != conn) }
      removed.callRoom sockets config (.disconnect conn) none

def onConnection (now : ℤ) : Ran :=
  if config.preHelloCeiling ≤ transport.preHelloCount then
    (transport, [.refuseSocket CloseCode.policyViolation])
  else
    let record : ConnectionRecord := { connected config.rateLimit now with }
    ({ transport with
        records := transport.records ++ [(transport.nextConn, record)]
        preHelloCount := transport.preHelloCount + 1
        nextConn := transport.nextConn + 1 }, [])

end Sending

def beat : Ran :=
  match transport.records.lookup conn with
  | none => (transport, [])
  | some record =>
      if record.isAlive then (transport.update conn ({ · with isAlive := false }), [.ping conn])
      else (transport, [.terminate conn])

def bidFarewell : Ran := (transport.releaseHelloWatch conn).close conn CloseCode.goingAway

def forEach (visit : Transport → ConnId → Ran) (transport : Transport) : List ConnId → Ran
  | [] => (transport, [])
  | conn :: rest => (visit transport conn).andThen fun next => next.forEach visit rest

end Transport

/-- An event of a socket, of a timer or of the operator. `throws` is a contained handler
that throws before it has done anything. -/
inductive TransportEvent where
  | connection (now : ℤ)
  | text (conn : ConnId) (now : ℤ) (parsed : Option JsValue) (draws : Draws) (thrown : Option Fault)
  | binary (conn : ConnId)
  | ping (conn : ConnId) (now : ℤ)
  | pong (conn : ConnId) (now : ℤ)
  | error (conn : ConnId)
  | throws (conn : ConnId)
  | helloTimeout (conn : ConnId)
  | terminateTimeout (conn : ConnId)
  | socketClose (conn : ConnId)
  | heartbeat
  | shutdown

/-- An event, with the state of the sockets that its handler finds. -/
structure TransportInput where
  event : TransportEvent
  sockets : ConnId → Frame → SocketState

/-- A socket that was never accepted, or has closed, delivers nothing. -/
def Transport.step (config : TransportConfig) (fl : ℚ → ℚ) (transport : Transport)
    (input : TransportInput) : Ran :=
  match input.event with
  | .connection now => transport.onConnection config now
  | .text conn now parsed draws thrown =>
      transport.onText conn input.sockets config fl now parsed draws thrown
  | .binary conn => transport.onBinary conn
  | .ping conn now => transport.onControl conn input.sockets config fl now false
  | .pong conn now => transport.onControl conn input.sockets config fl now true
  | .error _ => (transport, [])
  | .throws conn => transport.close conn CloseCode.internalError
  | .helloTimeout conn => transport.onHelloTimeout conn
  | .terminateTimeout conn => transport.onTerminateTimeout conn
  | .socketClose conn => transport.onClose conn input.sockets config
  | .heartbeat => transport.forEach Transport.beat (transport.records.map (·.1))
  | .shutdown => transport.forEach Transport.bidFarewell (transport.records.map (·.1))

abbrev TransportEntry := Machine.Entry Transport TransportInput (List Action)

def transportTrace (config : TransportConfig) (fl : ℚ → ℚ) (inputs : List TransportInput) :
    List TransportEntry :=
  Machine.trace (Transport.step config fl) .createServer inputs

def transportAfter (config : TransportConfig) (fl : ℚ → ℚ) (inputs : List TransportInput) :
    Transport :=
  Machine.run (Transport.step config fl) .createServer inputs

end DjApp.Server
