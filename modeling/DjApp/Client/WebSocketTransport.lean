import DjApp.Client.MainComponent

/-! The transport's dispatch of parsed messages, up to the handlers they reach. -/

set_option autoImplicit false

namespace DjApp.Client

/-- The application with the part of its transport that outlives a message. -/
structure ClientApp where
  component : MainComponent := {}
  lastSeenServerSeq : Option ℕ := none

namespace ClientApp

/-- A sequence number that is absent, or not above the last one, asks for a snapshot. -/
def needsSnapshot (lastSeen seq : Option ℕ) : Bool :=
  match seq, lastSeen with
  | some seq, some lastSeen => !(lastSeen < seq)
  | _, _ => true

def noteSeq (app : ClientApp) (msg : Var) : ClientApp :=
  { app with lastSeenServerSeq := (messageServerSeq msg).or app.lastSeenServerSeq }

def withComponent (app : ClientApp) (handled : MainComponent × List ClientMessage) :
    ClientApp × List ClientMessage :=
  ({ app with component := handled.1 }, handled.2)

def dispatchDelta (app : ClientApp) (now : ℚ) (msg : Var) : ClientApp × List ClientMessage :=
  match parseDeltaMessage msg with
  | .error _ => (app, [])
  | .ok delta =>
      let request := if needsSnapshot app.lastSeenServerSeq (messageServerSeq msg) then
        [ClientMessage.requestSnapshot] else []
      let handled := app.component.handleRemoteDelta now delta.clamp
      (((app.noteSeq msg).withComponent handled).1, request ++ handled.2)

/-- A welcome, and not the open socket, establishes the session. -/
def dispatch (app : ClientApp) (now : ℚ) (msg : Var) : ClientApp × List ClientMessage :=
  match messageType msg with
  | "welcome" =>
      let connected := app.component.handleConnectionChange true
      (app.noteSeq msg).withComponent (connected.handleWelcome now msg)
  | "delta" => app.dispatchDelta now msg
  | "snapshot" => (app.noteSeq msg).withComponent (app.component.handleServerEvent now msg)
  | "roleChanged" | "peerJoined" | "peerLeft" | "error" =>
      app.withComponent (app.component.handleServerEvent now msg)
  | _ => (app, [])

/-- A connection attempt; what was known of the last session's sequence is forgotten. -/
def connect (app : ClientApp) : ClientApp := { app with lastSeenServerSeq := none }

/-- The end of a connection, whoever ended it. -/
def closed (app : ClientApp) : ClientApp :=
  { app with component := app.component.handleConnectionChange false }

end ClientApp

/-- The message on the wire. -/
def ClientMessage.toVar : ClientMessage → Var
  | .hello name room =>
      .obj [("type", .str "hello"), ("protocolVersion", .number kProtocolVersion),
        ("name", .str name), ("room", .str room)]
  | .claimControl => buildClaimControl
  | .releaseControl => buildReleaseControl
  | .delta sent => buildDelta sent
  | .requestSnapshot => buildRequestSnapshot

end DjApp.Client
