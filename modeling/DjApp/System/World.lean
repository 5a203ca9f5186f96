import DjApp.Client.SoundStates
import DjApp.Server.ReplicaFrames

/-! One room server and any number of clients, with a FIFO channel each way on every
connection. -/

set_option autoImplicit false

namespace DjApp.System

open Library
open Server (ConnId Frame Room RoomConfig)
open Client (ClientApp ClientMessage StateDelta)

/-- A connection with what is in flight on it, oldest first. `listening` is the server's
end; a client's end is open while a client is linked to the connection. -/
structure Connection where
  up : List ClientMessage := []
  down : List Frame := []
  listening : Bool := false

/-- The server's end is closed, and what was on its way to it is lost. -/
def Connection.close (connection : Connection) : Connection :=
  { connection with up := [], listening := false }

def Connection.send (connection : Connection) (messages : List ClientMessage) : Connection :=
  if connection.listening then { connection with up := connection.up ++ messages } else connection

def closes (conn : ConnId) (effects : List Server.Effect) : Bool :=
  effects.any fun
    | .close target _ => target == conn
    | .send _ _ => false

/-- A connection after a call of the server with these effects. -/
def Connection.hear (connection : Connection) (conn : ConnId) (effects : List Server.Effect) :
    Connection :=
  let heard := { connection with down := connection.down ++ Server.framesTo conn effects }
  if closes conn effects then heard.close else heard

/-- The clients are numbered, each with the connection it is linked to, if any. -/
structure World where
  room : Room
  apps : ℕ → ClientApp
  links : ℕ → Option ConnId
  conns : ConnId → Connection
  nextConn : ConnId

/-- The client's role or the state of its connection changes. -/
def Moved (before after : ClientApp) : Prop :=
  before.component.role ≠ after.component.role ∨
    before.component.connected ≠ after.component.connected

namespace World

def initial : World where
  room := Server.createRoom
  apps := fun _ => {}
  links := fun _ => none
  conns := fun _ => {}
  nextConn := 0

/-- A client's step, with what it sends on its connection. -/
def act (world : World) (key : ℕ) (done : ClientApp × List ClientMessage) : World :=
  { world with
    apps := Function.update world.apps key done.1
    conns := match world.links key with
      | none => world.conns
      | some conn => Function.update world.conns conn ((world.conns conn).send done.2) }

def call (config : RoomConfig) (world : World) (call : Server.Call) : World :=
  let handled := world.room.step config call
  { world with
    room := handled.1
    conns := fun conn => (world.conns conn).hear conn handled.2.effects }

def setConn (world : World) (conn : ConnId) (connection : Connection) : World :=
  { world with conns := Function.update world.conns conn connection }

end World

/-- One step of the server, of a client or of the network. `read` is what the server makes of
the text of a message. -/
inductive StepBy (read : ClientMessage → JsValue) (config : RoomConfig) : World → World → Prop where
  | connect (world : World) (key : ℕ) (name room : String) (unlinked : world.links key = none)
      (built : Client.buildHello name room = .ok (ClientMessage.hello name room).toVar) :
      StepBy read config world
        { world with
          apps := Function.update world.apps key (world.apps key).connect
          links := Function.update world.links key (some world.nextConn)
          conns := Function.update world.conns world.nextConn
            { up := [.hello name room], listening := true }
          nextConn := world.nextConn + 1 }
  -- The client's end closes; what was on its way to the client is lost.
  | leave (world : World) (key : ℕ) (conn : ConnId) (linked : world.links key = some conn)
      (settled : Moved (world.apps key) (world.apps key).closed → (world.apps key).Idle) :
      StepBy read config world
        { world with
          apps := Function.update world.apps key (world.apps key).closed
          links := Function.update world.links key none }
  -- The server's end closes, of itself or because the client's end has.
  | drop (world : World) (conn : ConnId) (listening : (world.conns conn).listening = true) :
      StepBy read config world
        ((world.setConn conn (world.conns conn).close).call config (.disconnect conn))
  | serve (world : World) (conn : ConnId) (message : ClientMessage) (rest : List ClientMessage)
      (draws : Server.Draws) (listening : (world.conns conn).listening = true)
      (first : (world.conns conn).up = message :: rest) :
      StepBy read config world
        ((world.setConn conn { world.conns conn with up := rest }).call config
          (.message conn (read message) draws))
  | deliver (world : World) (key : ℕ) (conn : ConnId) (now : ℚ) (frame : Frame)
      (rest : List Frame) (linked : world.links key = some conn)
      (first : (world.conns conn).down = frame :: rest)
      (settled : Moved (world.apps key) ((world.apps key).dispatch now frame.toVar).1 →
        (world.apps key).Idle) :
      StepBy read config world
        ((world.setConn conn { world.conns conn with down := rest }).act key
          ((world.apps key).dispatch now frame.toVar))
  | claimControl (world : World) (key : ℕ) (conn : ConnId) (linked : world.links key = some conn) :
      StepBy read config world (world.act key (world.apps key, [.claimControl]))
  | releaseControl (world : World) (key : ℕ) (conn : ConnId)
      (linked : world.links key = some conn) :
      StepBy read config world (world.act key (world.apps key, [.releaseControl]))
  | edit (world : World) (key : ℕ) (now : ℚ) (delta : StateDelta)
      (allowed : (world.apps key).component.canControlLocally = true) (named : delta.NamesTrack) :
      StepBy read config world (world.act key ((world.apps key).step (.edit now delta)))
  | tick (world : World) (key : ℕ) (now : ℚ) :
      StepBy read config world (world.act key ((world.apps key).step (.tick now)))

/-- The server reads what is in flight as it was meant. -/
def World.Exact (read : ClientMessage → JsValue) (world : World) : Prop :=
  ∀ conn, ∀ message ∈ (world.conns conn).up, read message = message.asJs

/-- The worlds of every run that keeps to nine members at a time, and in which the server
reads every message as it was meant. -/
inductive ReachableBy (read : ClientMessage → JsValue) (config : RoomConfig) : World → Prop where
  | initial : ReachableBy read config .initial
  | step {world after : World} (reachable : ReachableBy read config world)
      (stepped : StepBy read config world after) (bounded : after.room.clients.length ≤ 9)
      (exact : after.Exact read := by exact fun _ _ _ => rfl) : ReachableBy read config after

/-- The steps and the worlds when the text of a message always says what it means. -/
abbrev Step := StepBy ClientMessage.asJs

abbrev Reachable := ReachableBy ClientMessage.asJs

section Reading

variable {read : ClientMessage → JsValue} {config : RoomConfig} {world after : World}

theorem StepBy.meant (stepped : StepBy read config world after) (exact : world.Exact read) :
    Step config world after := by
  cases stepped with
  | connect key name room unlinked built => exact .connect world key name room unlinked built
  | leave key conn linked settled => exact .leave world key conn linked settled
  | drop conn listening => exact .drop world conn listening
  | serve conn message rest draws listening first =>
      rw [exact conn message (first ▸ List.mem_cons_self)]
      exact .serve world conn message rest draws listening first
  | deliver key conn now frame rest linked first settled =>
      exact .deliver world key conn now frame rest linked first settled
  | claimControl key conn linked => exact .claimControl world key conn linked
  | releaseControl key conn linked => exact .releaseControl world key conn linked
  | edit key now delta allowed named => exact .edit world key now delta allowed named
  | tick key now => exact .tick world key now

theorem ReachableBy.exact (reachable : ReachableBy read config world) : world.Exact read := by
  cases reachable with
  | initial =>
      intro conn message sent
      cases sent
  | step _ _ _ exact => exact exact

/-- A run whose messages are read as they were meant is one of the runs without text. -/
theorem ReachableBy.meant (reachable : ReachableBy read config world) : Reachable config world := by
  induction reachable with
  | initial => exact .initial
  | step earlier stepped bounded _ ih => exact .step ih (stepped.meant earlier.exact) bounded

end Reading

namespace World

/-- Nothing is in flight, the closing of a client's end included, and nothing pending. -/
structure Quiescent (world : World) : Prop where
  sent : ∀ conn, (world.conns conn).up = []
  received : ∀ key conn, world.links key = some conn → (world.conns conn).down = []
  noticed : ∀ conn, (world.conns conn).listening = true → ∃ key, world.links key = some conn
  published : ∀ key, (world.apps key).Idle

/-- Each member is a client whose two decks are those of the room, field by field. -/
def Converged (world : World) : Prop :=
  ∀ conn registration, Server.IsMember world.room conn registration →
    ∃ key, world.links key = some conn ∧ ∀ deck,
      world.room.decks.lookup deck =
        some ((world.apps key).component.stateManager.getState deck).toDeck

end World

end DjApp.System
