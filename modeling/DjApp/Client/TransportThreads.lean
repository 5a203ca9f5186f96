import DjApp.Client.ClientRun

/-! The transport between its two threads. The network thread parses each frame and marshals
a callback; the message thread runs the callbacks among the clicks, edits and ticks. -/

set_option autoImplicit false

namespace DjApp.Client

/-- What is logged once on a connection. -/
inductive LogGuard where
  | binaryFrame
  | oversizeFrame
  | malformedFrame
  | unrecognizedType
  | malformedDelta
  | oversizeOutgoing
  deriving DecidableEq

def LogGuard.all : List LogGuard :=
  [.binaryFrame, .oversizeFrame, .malformedFrame, .unrecognizedType, .malformedDelta,
    .oversizeOutgoing]

def wireLimit : ℕ := 4096

def describeCloseCode (code : ℕ) : String :=
  match code with
  | 4000 => "handshake failed"
  | 4001 => "protocol version mismatch"
  | 4002 => "room is full"
  | 4003 => "disconnected for sending too many messages"
  | 4004 => "wrong room code"
  | 1001 => "server is shutting down"
  | 1008 => "disconnected: protocol violation"
  | 1009 => "disconnected: message too large"
  | 1011 => "server encountered an internal error"
  | _ => "connection closed"

/-- An atomic flag that outlives the connection it was made for, by its number. -/
abbrev AliveFlag := ℕ

/-- What is captured for the message thread. -/
inductive Callback where
  | connectionLost (reason : String)
  | welcome (parsed : Var)
  | remoteDelta (delta : StateDelta)
  | serverEvent (parsed : Var)

/-- A frame as it comes, with what the JSON parser makes of its text. -/
structure InboundFrame where
  binary : Bool
  bytes : ℕ
  parsed : Option Var

/-- The transport's own state. -/
structure TransportImpl where
  socket : Bool := false
  alive : Option AliveFlag := none
  hello : Option ClientMessage := none
  lastSeenServerSeq : Option ℕ := none
  logged : LogGuard → Bool := fun _ => false

/-- What the message thread goes on with when the old socket has stopped. -/
inductive Teardown where
  | connect (name room : String)
  | disconnect

/-- The flags are shared with the callbacks in the message queue. While `stopping` is set,
the message thread waits for the network thread in `stop`. -/
structure ClientThreads where
  component : MainComponent := {}
  impl : TransportImpl := {}
  flags : AliveFlag → Bool := fun _ => false
  allocated : ℕ := 0
  queue : List (Option AliveFlag × Callback) := []
  stopping : Option Teardown := none

/-- `crashed` is the reading of a flag that is null. -/
inductive ThreadAction where
  | sent (message : ClientMessage)
  | marshalled (alive : Option AliveFlag) (callback : Callback)
  | performed (alive : AliveFlag) (callback : Callback)
  | logged (guard : LogGuard) (bytes : ℕ)
  | crashed

abbrev ThreadsRan := ClientThreads × List ThreadAction

def ThreadsRan.andThen (ran : ThreadsRan) (next : ClientThreads → ThreadsRan) : ThreadsRan :=
  ((next ran.1).1, ran.2 ++ (next ran.1).2)

namespace ClientThreads

variable (threads : ClientThreads)

def logOnce (guard : LogGuard) (bytes : ℕ) : ThreadsRan :=
  if threads.impl.logged guard then (threads, [])
  else
    ({ threads with impl := { threads.impl with
        logged := Function.update threads.impl.logged guard true } },
      [.logged guard bytes])

/-- The callback keeps the flag that is current now. -/
def marshal (callback : Callback) : ThreadsRan :=
  ({ threads with queue := threads.queue ++ [(threads.impl.alive, callback)] },
    [.marshalled threads.impl.alive callback])

def noteSeq (msg : Var) : ClientThreads :=
  { threads with impl := { threads.impl with
      lastSeenServerSeq := (messageServerSeq msg).or threads.impl.lastSeenServerSeq } }

/-- How many bytes a message takes as text. -/
abbrev Measure := Var → ℕ

section Sending

variable (measure : Measure)

def sendMessage (message : ClientMessage) : ThreadsRan :=
  if wireLimit < measure message.toVar then threads.logOnce .oversizeOutgoing 0
  else (threads, if threads.impl.socket then [.sent message] else [])

def sendAll (threads : ClientThreads) : List ClientMessage → ThreadsRan
  | [] => (threads, [])
  | message :: rest => (threads.sendMessage measure message).andThen fun next => next.sendAll rest

/-- The request goes out at once; the delta itself waits for the message thread. -/
def dispatch (msg : Var) (frameBytes : ℕ) : ThreadsRan :=
  match messageType msg with
  | "welcome" => (threads.noteSeq msg).marshal (.welcome msg)
  | "delta" =>
      match parseDeltaMessage msg with
      | .error _ => threads.logOnce .malformedDelta frameBytes
      | .ok delta =>
          let missed := ClientApp.needsSnapshot threads.impl.lastSeenServerSeq (messageServerSeq msg)
          let asked := threads.sendAll measure (if missed then [.requestSnapshot] else [])
          asked.andThen fun next => (next.noteSeq msg).marshal (.remoteDelta delta.clamp)
  | "snapshot" => (threads.noteSeq msg).marshal (.serverEvent msg)
  | "roleChanged" | "peerJoined" | "peerLeft" | "error" => threads.marshal (.serverEvent msg)
  | _ => threads.logOnce .unrecognizedType frameBytes

def handleMessage (frame : InboundFrame) : ThreadsRan :=
  if frame.binary then threads.logOnce .binaryFrame frame.bytes
  else if wireLimit < frame.bytes then threads.logOnce .oversizeFrame frame.bytes
  else
    match frame.parsed with
    | some (.obj fields) => threads.dispatch measure (.obj fields) frame.bytes
    | _ => threads.logOnce .malformedFrame frame.bytes

end Sending

/-- Callbacks in the queue see the flag; the socket is still there. -/
def flip (next : Teardown) : ClientThreads :=
  { threads with
    flags := match threads.impl.alive with
      | some flag => Function.update threads.flags flag false
      | none => threads.flags
    stopping := some next }

/-- The rest of the teardown. -/
def stop : ClientThreads :=
  { threads with
    impl := { threads.impl with socket := false, alive := none }
    stopping := none }

def allocate : ClientThreads :=
  { threads with
    impl := { threads.impl with alive := some threads.allocated }
    flags := Function.update threads.flags threads.allocated true
    allocated := threads.allocated + 1 }

/-- A connection attempt after the teardown of the last one. -/
def connect (name room : String) : ThreadsRan :=
  match buildHello name room with
  | .error reason => threads.allocate.marshal (.connectionLost reason)
  | .ok _ =>
      ({ threads.allocate with impl :=
          { socket := true, alive := some threads.allocated, hello := some (.hello name room) } },
        [])

def resume : Teardown → ThreadsRan
  | .connect name room => threads.connect name room
  | .disconnect => ({ threads with component := threads.component.handleConnectionChange false }, [])

end ClientThreads

/-- The application's callbacks, as `connect` was given them. -/
def MainComponent.perform (component : MainComponent) (now : ℚ) :
    Callback → MainComponent × List ClientMessage
  | .connectionLost _ => (component.handleConnectionChange false, [])
  | .welcome parsed => (component.handleConnectionChange true).handleWelcome now parsed
  | .remoteDelta delta => component.handleRemoteDelta now delta
  | .serverEvent msg => component.handleServerEvent now msg

inductive NetworkEvent where
  | opened
  | message (frame : InboundFrame)
  | closed (code : ℕ)
  | error

inductive MessageEvent where
  | connectButton (name room : String)
  | claimButton
  | callback (now : ℚ)
  | edit (now : ℚ) (delta : StateDelta)
  | tick (now : ℚ)

inductive ThreadEvent where
  | network (event : NetworkEvent)
  | message (event : MessageEvent)
  | socketStopped

namespace ClientThreads

variable (threads : ClientThreads) (measure : Measure)

def networkStep : NetworkEvent → ThreadsRan
  | .opened => threads.sendAll measure threads.impl.hello.toList
  | .message frame => threads.handleMessage measure frame
  | .closed code => threads.marshal (.connectionLost (describeCloseCode code))
  | .error => threads.marshal (.connectionLost "connection error")

/-- The component has done something, and sends what comes of it. -/
def act (done : MainComponent × List ClientMessage) : ThreadsRan :=
  { threads with component := done.1 }.sendAll measure done.2

def runCallback (now : ℚ) : ThreadsRan :=
  match threads.queue with
  | [] => (threads, [])
  | (none, _) :: _ => (threads, [.crashed])
  | (some flag, callback) :: rest =>
      let popped := { threads with queue := rest }
      if threads.flags flag then
        ThreadsRan.andThen (popped, [.performed flag callback]) fun next =>
          next.act measure (threads.component.perform now callback)
      else (popped, [])

/-- The button reads `Disconnect` while connected, and the other is greyed out until then. -/
def messageStep : MessageEvent → ThreadsRan
  | .connectButton name room =>
      (threads.flip (if threads.component.connected then .disconnect else .connect name room), [])
  | .claimButton =>
      if threads.component.connected then
        threads.sendMessage measure
          (if threads.component.role = .controller then .releaseControl else .claimControl)
      else (threads, [])
  | .callback now => threads.runCallback measure now
  | .edit now delta => threads.act measure (threads.component.applyDelta now delta .own)
  | .tick now => threads.act measure (threads.component.publisherTick now)

/-- The network thread runs while there is a socket, and is joined before `stop` returns. -/
def step (measure : Measure) (threads : ClientThreads) : ThreadEvent → ThreadsRan
  | .network event =>
      if threads.impl.socket then threads.networkStep measure event else (threads, [])
  | .message event =>
      match threads.stopping with
      | none => threads.messageStep measure event
      | some _ => (threads, [])
  | .socketStopped =>
      match threads.stopping with
      | none => (threads, [])
      | some next => threads.stop.resume next

end ClientThreads

abbrev ThreadEntry := Library.Machine.Entry ClientThreads ThreadEvent (List ThreadAction)

def ClientThreads.started (varToString : Var → String) : ClientThreads :=
  { component := { varToString := varToString } }

section Runs

variable (varToString : Var → String) (measure : ClientThreads.Measure) (events : List ThreadEvent)

def threadsTrace : List ThreadEntry :=
  Library.Machine.trace (ClientThreads.step measure) (.started varToString) events

def threadsAfter : ClientThreads :=
  Library.Machine.run (ClientThreads.step measure) (.started varToString) events

end Runs

end DjApp.Client
