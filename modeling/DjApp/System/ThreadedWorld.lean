import DjApp.Client.SnapshotRequests
import DjApp.System.World

/-! The world with the two threads of each client apart: a frame that the network thread has
parsed waits for the message thread, which may be in the middle of something else. -/

set_option autoImplicit false

namespace DjApp.System

open Library
open Server (ConnId Frame Room RoomConfig)
open Client (ClientApp ClientMessage ClientThreads InboundFrame NetworkEvent StateDelta
  ThreadEvent sentMessages)

/-- No message is too large for the wire; the world has no sizes. -/
def unmeasured : ClientThreads.Measure := fun _ => 0

/-- A frame as the socket hands it over. -/
def inbound (frame : Frame) : InboundFrame := ⟨false, 0, some frame.toVar⟩

/-- The part of a client that `World` has. -/
def appOf (threads : ClientThreads) : ClientApp :=
  ⟨threads.component, threads.impl.lastSeenServerSeq⟩

/-- `links` has the clients whose socket is open. -/
structure ThreadedWorld where
  room : Room
  clients : ℕ → ClientThreads
  links : ℕ → Option ConnId
  conns : ConnId → Connection
  nextConn : ConnId

namespace ThreadedWorld

def initial : ThreadedWorld where
  room := Server.createRoom
  clients := fun _ => {}
  links := fun _ => none
  conns := fun _ => {}
  nextConn := 0

/-- An event of one of a client's threads, with what is sent on its connection. -/
def turn (world : ThreadedWorld) (key : ℕ) (event : ThreadEvent) : ThreadedWorld :=
  let ran := (world.clients key).step unmeasured event
  { world with
    clients := Function.update world.clients key ran.1
    conns := match world.links key with
      | none => world.conns
      | some conn =>
          Function.update world.conns conn ((world.conns conn).send (sentMessages ran.2)) }

def call (config : RoomConfig) (world : ThreadedWorld) (call : Server.Call) : ThreadedWorld :=
  let handled := world.room.step config call
  { world with
    room := handled.1
    conns := fun conn => (world.conns conn).hear conn handled.2.effects }

def setConn (world : ThreadedWorld) (conn : ConnId) (connection : Connection) : ThreadedWorld :=
  { world with conns := Function.update world.conns conn connection }

def setLink (world : ThreadedWorld) (key : ℕ) (link : Option ConnId) : ThreadedWorld :=
  { world with links := Function.update world.links key link }

end ThreadedWorld

/-- The component's part of `Moved`, and the assumption on it. -/
def Settled (before after : ClientThreads) : Prop :=
  Moved (appOf before) (appOf after) → (appOf before).Idle

/-- One step of the server, of a thread of a client or of the network. The hello is sent as
the socket opens. -/
inductive ThreadedStepBy (read : ClientMessage → JsValue) (config : RoomConfig) :
    ThreadedWorld → ThreadedWorld → Prop where
  | receive (world : ThreadedWorld) (key : ℕ) (conn : ConnId) (frame : Frame) (rest : List Frame)
      (linked : world.links key = some conn) (first : (world.conns conn).down = frame :: rest) :
      ThreadedStepBy read config world
        ((world.setConn conn { world.conns conn with down := rest }).turn key
          (.network (.message (inbound frame))))
  -- The network thread learns that the server's end has closed.
  | lost (world : ThreadedWorld) (key : ℕ) (conn : ConnId) (event : NetworkEvent)
      (linked : world.links key = some conn) (closed : (world.conns conn).listening = false)
      (ends : event = .error ∨ ∃ code, event = .closed code) :
      ThreadedStepBy read config world ((world.turn key (.network event)).setLink key none)
  | callback (world : ThreadedWorld) (key : ℕ) (now : ℚ)
      (settled : Settled (world.clients key)
        ((world.turn key (.message (.callback now))).clients key)) :
      ThreadedStepBy read config world (world.turn key (.message (.callback now)))
  | edit (world : ThreadedWorld) (key : ℕ) (now : ℚ) (delta : StateDelta)
      (allowed : (world.clients key).component.canControlLocally = true)
      (named : delta.NamesTrack) :
      ThreadedStepBy read config world (world.turn key (.message (.edit now delta)))
  | tick (world : ThreadedWorld) (key : ℕ) (now : ℚ) :
      ThreadedStepBy read config world (world.turn key (.message (.tick now)))
  | claimButton (world : ThreadedWorld) (key : ℕ) :
      ThreadedStepBy read config world (world.turn key (.message .claimButton))
  | connectButton (world : ThreadedWorld) (key : ℕ) (name room : String) :
      ThreadedStepBy read config world (world.turn key (.message (.connectButton name room)))
  -- The old socket has stopped, and the message thread goes on.
  | disconnected (world : ThreadedWorld) (key : ℕ)
      (waiting : (world.clients key).stopping = some .disconnect)
      (settled : Settled (world.clients key) ((world.turn key .socketStopped).clients key)) :
      ThreadedStepBy read config world ((world.turn key .socketStopped).setLink key none)
  | refused (world : ThreadedWorld) (key : ℕ) (name room reason : String)
      (waiting : (world.clients key).stopping = some (.connect name room))
      (invalid : Client.buildHello name room = .error reason) :
      ThreadedStepBy read config world ((world.turn key .socketStopped).setLink key none)
  | connected (world : ThreadedWorld) (key : ℕ) (name room : String)
      (waiting : (world.clients key).stopping = some (.connect name room))
      (built : Client.buildHello name room = .ok (ClientMessage.hello name room).toVar) :
      ThreadedStepBy read config world
        { (world.turn key .socketStopped).setLink key (some world.nextConn) with
          conns := Function.update world.conns world.nextConn
            { up := [.hello name room], listening := true }
          nextConn := world.nextConn + 1 }
  | drop (world : ThreadedWorld) (conn : ConnId)
      (listening : (world.conns conn).listening = true) :
      ThreadedStepBy read config world
        ((world.setConn conn (world.conns conn).close).call config (.disconnect conn))
  | serve (world : ThreadedWorld) (conn : ConnId) (message : ClientMessage)
      (rest : List ClientMessage) (draws : Server.Draws)
      (listening : (world.conns conn).listening = true)
      (first : (world.conns conn).up = message :: rest) :
      ThreadedStepBy read config world
        ((world.setConn conn { world.conns conn with up := rest }).call config
          (.message conn (read message) draws))

def ThreadedWorld.Exact (read : ClientMessage → JsValue) (world : ThreadedWorld) : Prop :=
  ∀ conn, ∀ message ∈ (world.conns conn).up, read message = message.asJs

/-- The worlds of every run that keeps to nine members at a time, and in which the server
reads every message as it was meant. -/
inductive ThreadedReachableBy (read : ClientMessage → JsValue) (config : RoomConfig) :
    ThreadedWorld → Prop where
  | initial : ThreadedReachableBy read config .initial
  | step {world after : ThreadedWorld} (reachable : ThreadedReachableBy read config world)
      (stepped : ThreadedStepBy read config world after)
      (bounded : after.room.clients.length ≤ 9)
      (exact : after.Exact read := by exact fun _ _ _ => rfl) :
      ThreadedReachableBy read config after

abbrev ThreadedStep := ThreadedStepBy ClientMessage.asJs

abbrev ThreadedReachable := ThreadedReachableBy ClientMessage.asJs

section Reading

variable {read : ClientMessage → JsValue} {config : RoomConfig} {world after : ThreadedWorld}

theorem ThreadedStepBy.meant (stepped : ThreadedStepBy read config world after)
    (exact : world.Exact read) : ThreadedStep config world after := by
  cases stepped with
  | receive key conn frame rest linked first => exact .receive world key conn frame rest linked first
  | lost key conn event linked closed ends => exact .lost world key conn event linked closed ends
  | callback key now settled => exact .callback world key now settled
  | edit key now delta allowed named => exact .edit world key now delta allowed named
  | tick key now => exact .tick world key now
  | claimButton key => exact .claimButton world key
  | connectButton key name room => exact .connectButton world key name room
  | disconnected key waiting settled => exact .disconnected world key waiting settled
  | refused key name room reason waiting invalid =>
      exact .refused world key name room reason waiting invalid
  | connected key name room waiting built => exact .connected world key name room waiting built
  | drop conn listening => exact .drop world conn listening
  | serve conn message rest draws listening first =>
      rw [exact conn message (first ▸ List.mem_cons_self)]
      exact .serve world conn message rest draws listening first

theorem ThreadedReachableBy.exact (reachable : ThreadedReachableBy read config world) :
    world.Exact read := by
  cases reachable with
  | initial =>
      intro conn message sent
      cases sent
  | step _ _ _ exact => exact exact

theorem ThreadedReachableBy.meant (reachable : ThreadedReachableBy read config world) :
    ThreadedReachable config world := by
  induction reachable with
  | initial => exact .initial
  | step earlier stepped bounded _ ih => exact .step ih (stepped.meant earlier.exact) bounded

end Reading

end DjApp.System
