import DjApp.Client.StateManager

/-! The publisher of local changes: only deltas of this client, while it is connected
and controls, throttled per deck to one send in each interval. -/

set_option autoImplicit false

namespace DjApp.Client

open Library.BinaryRounding (double)

/-- Overwrites each field present in `incoming`, so that its latest value wins. -/
def mergeField (pending incoming : StateDelta) : StateDelta where
  deck := pending.deck
  trackId := incoming.trackId.or pending.trackId
  playing := incoming.playing.or pending.playing
  positionSeconds := incoming.positionSeconds.or pending.positionSeconds
  gain := incoming.gain.or pending.gain
  playbackRate := incoming.playbackRate.or pending.playbackRate
  pitchOffsetSemitones := incoming.pitchOffsetSemitones.or pending.pitchOffsetSemitones
  loop := incoming.loop.or pending.loop
  repeats := incoming.repeats.or pending.repeats

/-- Times are in milliseconds. -/
structure SyncPublisher where
  connected : Bool := false
  role : Role := .observer
  pending : DeckId → Option StateDelta := fun _ => none
  lastSendMs : DeckId → ℚ := fun _ => 0
  hasSentBefore : DeckId → Bool := fun _ => false
  timerRunning : Bool := false

namespace SyncPublisher

def kMinIntervalMs : ℚ := double (1000 / 30)

def throttled (publisher : SyncPublisher) (now : ℚ) (deck : DeckId) : Bool :=
  publisher.hasSentBefore deck && now - publisher.lastSendMs deck < kMinIntervalMs

def send (publisher : SyncPublisher) (now : ℚ) (deck : DeckId) :
    SyncPublisher × List StateDelta :=
  match publisher.pending deck with
  | none => (publisher, [])
  | some delta =>
      ({ publisher with
          pending := Function.update publisher.pending deck none
          lastSendMs := Function.update publisher.lastSendMs deck now
          hasSentBefore := Function.update publisher.hasSentBefore deck true }, [delta])

def maybeSend (publisher : SyncPublisher) (now : ℚ) (deck : DeckId) :
    SyncPublisher × List StateDelta :=
  if publisher.throttled now deck then ({ publisher with timerRunning := true }, [])
  else publisher.send now deck

def handleLocalDelta (publisher : SyncPublisher) (now : ℚ) (applied : StateDelta) :
    SyncPublisher × List StateDelta :=
  let merged := match publisher.pending applied.deck with
    | some pending => mergeField pending applied
    | none => applied
  let publisher := { publisher with
    pending := Function.update publisher.pending applied.deck (some merged) }
  publisher.maybeSend now applied.deck

/-- The listener the publisher registers with the state manager. -/
def notify (publisher : SyncPublisher) (now : ℚ) (notification : Notification) :
    SyncPublisher × List StateDelta :=
  if notification.source ≠ .own ∨ publisher.connected = false ∨ publisher.role ≠ .controller then
    (publisher, [])
  else publisher.handleLocalDelta now notification.applied

def flushDeck (publisher : SyncPublisher) (now : ℚ) (deck : DeckId) :
    SyncPublisher × List StateDelta :=
  if publisher.throttled now deck then (publisher, []) else publisher.send now deck

def timerCallback (publisher : SyncPublisher) (now : ℚ) : SyncPublisher × List StateDelta :=
  let first := publisher.flushDeck now .A
  let second := first.1.flushDeck now .B
  let anyStillPending := (second.1.pending .A).isSome || (second.1.pending .B).isSome
  ({ second.1 with timerRunning := second.1.timerRunning && anyStillPending },
    first.2 ++ second.2)

end SyncPublisher

end DjApp.Client
