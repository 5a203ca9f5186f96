import DjApp.Client.ClientRun
import DjApp.Engine.EngineAdapter
import DjApp.Engine.Rendering

/-! A client with the engines of its two decks: the listeners of its state manager, the
timers that write back into it, and the audio thread. -/

set_option autoImplicit false

namespace DjApp.Client

open Library
open Library.BinaryRounding (double)
open Engine (AudioRepository BufferPlaybackSource EngineAdapter Renderer)

/-- `expiry` is the time of the next tick while the timer runs. -/
structure PositionClock where
  role : Role := .observer
  expiry : Option ℚ := none

namespace PositionClock

def updateTimerState (clock : PositionClock) (now : ℚ) (playing : Bool) : PositionClock :=
  { clock with
    expiry := if clock.role = .controller ∧ playing = true then some (now + 5000) else none }

def setRole (clock : PositionClock) (now : ℚ) (playing : Bool) (role : Role) : PositionClock :=
  updateTimerState { clock with role := role } now playing

end PositionClock

/-- One deck's adapter, playback source and position clock. -/
structure DeckPlayer where
  adapter : EngineAdapter
  source : BufferPlaybackSource := .initial
  renderer : Renderer := {}
  clock : PositionClock := {}

def DeckPlayer.getCurrentPosition (deck : DeckPlayer) : ℚ :=
  deck.source.getCurrentPositionSeconds double

def DeckPlayer.isPlaying (deck : DeckPlayer) : Bool := deck.source.playing

/-- The listeners of one deck, for a change of the state that is now `newState`. -/
def DeckPlayer.notify (player : DeckPlayer) (repository : AudioRepository) (now : ℚ)
    (notification : Notification) : DeckPlayer :=
  let handled := player.adapter.handleDelta repository notification.applied
  { player with
    adapter := handled.1
    source := handled.2.foldl .perform player.source
    clock :=
      if notification.applied.deck = player.adapter.deck ∧ notification.applied.playing.isSome then
        player.clock.updateTimerState now notification.newState.playing
      else player.clock }

structure Player where
  app : ClientApp := {}
  decks : DeckId → DeckPlayer := fun deck => { adapter := { deck } }

def Player.started (varToString : Var → String) : Player :=
  { app := { component := { varToString := varToString } } }

def snapshotDelta (decks : Properties) (deck : DeckId) : Option StateDelta :=
  (decks.lookup deck.text).bind fun v =>
    match playbackStateFromVar v with
    | .error _ => none
    | .ok state => some (fullResyncDelta deck state.clamp)

/-- The deltas that `applySnapshot` hands to the state manager. -/
def snapshotDeltas : Var → List StateDelta
  | .obj decks => (snapshotDelta decks .A).toList ++ (snapshotDelta decks .B).toList
  | _ => []

/-- The remote deltas that the dispatch of a message hands to the state manager. -/
def remoteDeltas (msg : Var) : List StateDelta :=
  match msg with
  | .obj fields =>
      match messageType msg with
      | "welcome" =>
          match getProperty fields "snapshot" with
          | .obj snapshot => snapshotDeltas (getProperty snapshot "decks")
          | _ => []
      | "snapshot" => snapshotDeltas (getProperty fields "decks")
      | "delta" =>
          match parseDeltaMessage msg with
          | .error _ => []
          | .ok delta => [delta.clamp]
      | _ => []
  | _ => []

/-- Whether the dispatch of a message ends with `applyRoleToUI`. -/
def tellsRole (msg : Var) : Bool :=
  messageType msg == "welcome" || messageType msg == "roleChanged" ||
    messageType msg == "peerLeft"

namespace Player

variable (repository : AudioRepository)

def notify (player : Player) (now : ℚ) (notification : Notification) : Player :=
  { player with decks := fun deck => (player.decks deck).notify repository now notification }

/-- The listeners' work for deltas that are applied one after the other. -/
def notifyAll (now : ℚ) (source : DeltaSource) : Player → StateManager → List StateDelta → Player
  | player, _, [] => player
  | player, manager, delta :: rest =>
      let applied := manager.applyDelta delta source
      let told := match applied.2 with
        | none => player
        | some notification => player.notify repository now notification
      notifyAll now source told applied.1 rest

variable (player : Player) (now : ℚ)

/-- `DeckPositionClocks::setRole`, with the role the application has. -/
def setClockRoles : Player :=
  { player with
    decks := fun deck => { player.decks deck with
      clock := (player.decks deck).clock.setRole now
        (player.app.component.stateManager.getState deck).playing player.app.component.role } }

def withApp (app : ClientApp) : Player := { player with app := app }

/-- A change of this client's own, by its user or by one of its timers. -/
def applyOwn (delta : StateDelta) : Player × List ClientMessage :=
  let handled := player.app.step (.edit now delta)
  ((notifyAll repository now .own player player.app.component.stateManager [delta]).withApp
    handled.1, handled.2)

def dispatch (msg : Var) : Player × List ClientMessage :=
  let handled := player.app.dispatch now msg
  let told := (notifyAll repository now .remote player player.app.component.stateManager
    (remoteDeltas msg)).withApp handled.1
  (if tellsRole msg then told.setClockRoles now else told, handled.2)

/-- The adapter's timer: an engine that has stopped by itself stops the deck's state. -/
def checkForSelfStop (deck : DeckId) : Player × List ClientMessage :=
  if (player.app.component.stateManager.getState deck).playing ∧
      (player.decks deck).isPlaying = false then
    player.applyOwn repository now { deck, playing := some false }
  else (player, [])

/-- The position clock's timer: the controller sends the engine's position. -/
def emitResyncNow (deck : DeckId) : Player × List ClientMessage :=
  if (player.decks deck).clock.role = .controller ∧
      (player.app.component.stateManager.getState deck).playing then
    player.applyOwn repository now
      { deck, positionSeconds := some (player.decks deck).getCurrentPosition }
  else (player, [])

end Player

/-- `block` is a block of the audio thread, `prepareToPlay` the device's start. -/
inductive PlayerEvent where
  | edit (now : ℚ) (delta : StateDelta)
  | message (now : ℚ) (msg : Var)
  | publisherTick (now : ℚ)
  | selfStopTick (now : ℚ) (deck : DeckId)
  | positionTick (now : ℚ) (deck : DeckId)
  | prepareToPlay (deck : DeckId) (samplesPerBlockExpected : ℕ) (sampleRate : ℚ)
  | block (deck : DeckId) (numOutput : ℕ)
  | connect
  | closed (now : ℚ)

namespace Player

variable (repository : AudioRepository) (outputLatencyFrames : ℚ → ℕ)

def setDeck (player : Player) (deck : DeckId) (changed : DeckPlayer) : Player :=
  { player with decks := Function.update player.decks deck changed }

/-- A timer's tick does nothing while the timer does not run. -/
def step (player : Player) : PlayerEvent → Player × List ClientMessage
  | .edit now delta => player.applyOwn repository now delta
  | .message now msg => player.dispatch repository now msg
  | .publisherTick now =>
      let handled := player.app.step (.tick now)
      (player.withApp handled.1, handled.2)
  | .selfStopTick now deck =>
      if (player.decks deck).adapter.polling then player.checkForSelfStop repository now deck
      else (player, [])
  | .positionTick now deck =>
      match (player.decks deck).clock.expiry with
      | none => (player, [])
      | some expiry =>
          if now < expiry then (player, [])
          else
            let clock := { (player.decks deck).clock with expiry := some (now + 5000) }
            (player.setDeck deck { player.decks deck with clock := clock }).emitResyncNow
              repository now deck
  | .prepareToPlay deck samplesPerBlockExpected sampleRate =>
      (player.setDeck deck { player.decks deck with
        renderer := (player.decks deck).renderer.prepareToPlay samplesPerBlockExpected
          sampleRate }, [])
  | .block deck numOutput =>
      let rendered := Engine.getNextAudioBlock double outputLatencyFrames
        (player.decks deck).source (player.decks deck).renderer numOutput
      (player.setDeck deck { player.decks deck with
        source := rendered.1, renderer := rendered.2 }, [])
  | .connect => (player.withApp player.app.connect, [])
  | .closed now => ((player.withApp player.app.closed).setClockRoles now, [])

end Player

end DjApp.Client
