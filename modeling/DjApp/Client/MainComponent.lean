import DjApp.Client.Serialization
import DjApp.Client.SyncPublisher

/-! The client application: what it does with the frames of its room and with its own
user's edits. -/

set_option autoImplicit false

namespace DjApp.Client

inductive ClientMessage where
  | hello (name room : String)
  | claimControl
  | releaseControl
  | delta (delta : StateDelta)
  | requestSnapshot
  deriving DecidableEq

structure PeerInfo where
  clientId : String
  name : String
  role : Role
  deriving DecidableEq

structure MainComponent where
  stateManager : StateManager := .initial
  syncPublisher : SyncPublisher := {}
  ownClientId : String := ""
  role : Role := .observer
  peers : List PeerInfo := []
  connected : Bool := false
  -- What `var::toString` makes of a value that is no string.
  varToString : Var → String := fun _ => ""

def roleFromWireString (s : String) : Role := if s = "controller" then .controller else .observer

def anyPeerControls (peers : List PeerInfo) : Bool := peers.any (·.role = .controller)

def kMaxPeers : ℕ := 8

def updatePeer (peers : List PeerInfo) (peer : PeerInfo) : List PeerInfo :=
  match peers with
  | [] => []
  | existing :: rest =>
      if existing.clientId = peer.clientId then peer :: rest
      else existing :: updatePeer rest peer

/-- Rejects a peer whose name is not one, and does not grow past the room's size. -/
def addOrUpdatePeer (peers : List PeerInfo) (peer : PeerInfo) : List PeerInfo :=
  if !isValidPeerName peer.name then peers
  else if peers.any (·.clientId = peer.clientId) then updatePeer peers peer
  else if kMaxPeers ≤ peers.length then peers
  else peers ++ [peer]

def setPeerRole (peers : List PeerInfo) (clientId : String) (role : Role) : List PeerInfo :=
  peers.map fun peer => if peer.clientId = clientId then { peer with role := role } else peer

/-- `toString` of a property; a room sends strings. -/
def propertyString (varToString : Var → String) (fields : Properties) (name : String) : String :=
  match getProperty fields name with
  | .str s => s
  | other => varToString other

def peerFromFields (varToString : Var → String) (fields : Properties) : PeerInfo :=
  ⟨propertyString varToString fields "clientId", propertyString varToString fields "name",
    roleFromWireString (propertyString varToString fields "role")⟩

def hasPeerFields (fields : Properties) : Bool :=
  hasProperty fields "clientId" && hasProperty fields "name" && hasProperty fields "role"

def controlsEnabledLocally (connected isLocalController anyPeerIsController : Bool) : Bool :=
  !connected || isLocalController || !anyPeerIsController

namespace MainComponent

/-- A state change, with its notification of the publisher. -/
def applyDelta (component : MainComponent) (now : ℚ) (delta : StateDelta) (source : DeltaSource) :
    MainComponent × List ClientMessage :=
  match component.stateManager.applyDelta delta source with
  | (manager, none) => ({ component with stateManager := manager }, [])
  | (manager, some notification) =>
      let published := component.syncPublisher.notify now notification
      ({ component with stateManager := manager, syncPublisher := published.1 },
        published.2.map .delta)

/-- The part of `applyRoleToUI` beside the widgets. -/
def applyRoleToUI (component : MainComponent) : MainComponent :=
  { component with syncPublisher := { component.syncPublisher with role := component.role } }

def canControlLocally (component : MainComponent) : Bool :=
  controlsEnabledLocally component.connected (component.role = .controller)
    (anyPeerControls component.peers)

/-- Sent past the state manager, so that no track of this client is reloaded. -/
def pushFullResync (component : MainComponent) : List ClientMessage :=
  [.delta (fullResyncDelta .A (component.stateManager.getState .A)),
    .delta (fullResyncDelta .B (component.stateManager.getState .B))]

def applyDeckSnapshot (component : MainComponent) (now : ℚ) (deck : DeckId) (v : Var) :
    MainComponent × List ClientMessage :=
  match playbackStateFromVar v with
  | .error _ => (component, [])
  | .ok state => component.applyDelta now (fullResyncDelta deck state.clamp) .remote

def applySnapshotDeck (component : MainComponent) (now : ℚ) (decks : Properties) (deck : DeckId) :
    MainComponent × List ClientMessage :=
  match decks.lookup deck.text with
  | none => (component, [])
  | some v => component.applyDeckSnapshot now deck v

/-- A deck that the snapshot does not have is left as it is. -/
def applySnapshot (component : MainComponent) (now : ℚ) (decks : Var) :
    MainComponent × List ClientMessage :=
  match decks with
  | .obj fields =>
      let first := component.applySnapshotDeck now fields .A
      let second := first.1.applySnapshotDeck now fields .B
      (second.1, first.2 ++ second.2)
  | _ => (component, [])

/-- The peers of a welcome, each checked before it is listed. -/
def welcomePeers (varToString : Var → String) : Var → List PeerInfo
  | .arr entries =>
      entries.foldl (fun peers entry =>
        match entry with
        | .obj fields =>
            if hasPeerFields fields then
              Client.addOrUpdatePeer peers (peerFromFields varToString fields)
            else peers
        | _ => peers) []
  | _ => []

def handleWelcome (component : MainComponent) (now : ℚ) (welcome : Var) :
    MainComponent × List ClientMessage :=
  match welcome with
  | .obj fields =>
      let component := { component with
        ownClientId := propertyString component.varToString fields "clientId"
        role := roleFromWireString (propertyString component.varToString fields "role") }
      let applied := match getProperty fields "snapshot" with
        | .obj snapshot => component.applySnapshot now (getProperty snapshot "decks")
        | _ => (component, [])
      let component := { applied.1 with
        peers := welcomePeers component.varToString (getProperty fields "peers") }
      (component.applyRoleToUI, applied.2)
  | _ => (component, [])

def handleRemoteDelta (component : MainComponent) (now : ℚ) (delta : StateDelta) :
    MainComponent × List ClientMessage :=
  component.applyDelta now delta .remote

def handleRoleChanged (component : MainComponent) (clientId : String) (role : Role) :
    MainComponent × List ClientMessage :=
  if clientId = component.ownClientId then
    let becameController := role = .controller ∧ component.role ≠ .controller
    let changed : MainComponent := { component with role := role }
    (changed.applyRoleToUI, if becameController then changed.pushFullResync else [])
  else
    let changed : MainComponent := { component with
      peers := setPeerRole component.peers clientId role }
    (changed.applyRoleToUI, [])

def handleServerEvent (component : MainComponent) (now : ℚ) (msg : Var) :
    MainComponent × List ClientMessage :=
  match msg with
  | .obj fields =>
      match messageType msg with
      | "snapshot" => component.applySnapshot now (getProperty fields "decks")
      | "roleChanged" =>
          component.handleRoleChanged (propertyString component.varToString fields "clientId")
            (roleFromWireString (propertyString component.varToString fields "role"))
      | "peerJoined" =>
          if hasPeerFields fields then
            ({ component with
                peers := Client.addOrUpdatePeer component.peers
                  (peerFromFields component.varToString fields) }, [])
          else (component, [])
      | "peerLeft" =>
          let changed : MainComponent := { component with
            peers := component.peers.filter
              (·.clientId ≠ propertyString component.varToString fields "clientId") }
          (changed.applyRoleToUI, [])
      | _ => (component, [])
  | _ => (component, [])

def handleConnectionChange (component : MainComponent) (connected : Bool) : MainComponent :=
  let changed : MainComponent := { component with
    connected := connected
    syncPublisher := { component.syncPublisher with connected := connected } }
  if connected then changed
  else
    let left : MainComponent := { changed with role := .observer, ownClientId := "", peers := [] }
    left.applyRoleToUI

def publisherTick (component : MainComponent) (now : ℚ) : MainComponent × List ClientMessage :=
  let flushed := component.syncPublisher.timerCallback now
  ({ component with syncPublisher := flushed.1 }, flushed.2.map .delta)

end MainComponent

end DjApp.Client
