import DjApp.Server.RoomTransitions

/-! The copy of the room that a member can keep from the frames it receives. -/

set_option autoImplicit false

namespace DjApp.Server

open Library

/-- What reaches a member's log: the frames sent to it, and its own accepted deltas. -/
inductive LogEvent where
  | frame (frame : Frame)
  | ownDelta (deck : DeckId) (changes : Changes)
  deriving DecidableEq

structure Replica where
  decks : DeckId → Option Deck
  peers : List Peer
  role : Role
  self : ClientId

namespace Replica

def ofWelcome (id : ClientId) (role : Role) (decks : List (DeckId × Deck)) (peers : List Peer) :
    Replica :=
  ⟨fun deck => decks.lookup deck, peers, role, id⟩

/-- The defaults of the protocol's field reference. -/
def fieldDefaults : Deck where
  trackId := none
  playing := false
  positionSeconds := 0
  gain := 1
  playbackRate := 1
  pitchOffsetSemitones := 0
  loop := none
  repeats := true

/-- Every field that `changes` has takes its value there; a deck not yet present starts from
the defaults. -/
def overlay (replica : Replica) (deck : DeckId) (changes : Changes) : Replica :=
  let shown := (replica.decks deck).getD fieldDefaults
  { replica with
    decks := Function.update replica.decks deck (some
      { trackId := changes.trackId.getD shown.trackId
        playing := changes.playing.getD shown.playing
        positionSeconds := changes.positionSeconds.getD shown.positionSeconds
        gain := changes.gain.getD shown.gain
        playbackRate := changes.playbackRate.getD shown.playbackRate
        pitchOffsetSemitones := changes.pitchOffsetSemitones.getD shown.pitchOffsetSemitones
        loop := changes.loop.getD shown.loop
        repeats := changes.repeats.getD shown.repeats }) }

def addOrUpdatePeer (peers : List Peer) (peer : Peer) : List Peer :=
  if peers.any (·.clientId = peer.clientId) then
    peers.map fun known => if known.clientId = peer.clientId then peer else known
  else peers ++ [peer]

def setPeerRole (peers : List Peer) (id : ClientId) (role : Role) : List Peer :=
  peers.map fun peer => if peer.clientId = id then { peer with role := role } else peer

def receive (replica : Replica) : Frame → Replica
  | .welcome id role _ decks peers => ofWelcome id role decks peers
  | .peerJoined id name role =>
      { replica with peers := addOrUpdatePeer replica.peers ⟨id, name, role⟩ }
  | .peerLeft id => { replica with peers := replica.peers.filter (·.clientId ≠ id) }
  | .roleChanged id role =>
      if id = replica.self then { replica with role := role }
      else { replica with peers := setPeerRole replica.peers id role }
  | .delta _ _ deck changes => replica.overlay deck changes
  | .snapshot _ decks => { replica with decks := fun deck => decks.lookup deck }
  | .error _ _ => replica

def apply (replica : Replica) : LogEvent → Replica
  | .frame frame => replica.receive frame
  | .ownDelta deck changes => replica.overlay deck changes

end Replica

/-- Replays a log from the welcome it starts with. -/
def replay : List LogEvent → Option Replica
  | .frame (.welcome id role _ decks peers) :: rest =>
      some (rest.foldl Replica.apply (Replica.ofWelcome id role decks peers))
  | _ => none

def framesTo (conn : ConnId) (effects : List Effect) : List Frame :=
  effects.filterMap fun
    | .send target frame => if target = conn then some frame else none
    | .close _ _ => none

def ownDeltas (conn : ConnId) (row : Entry) : List (DeckId × Changes) :=
  if row.input.conn = conn then (acceptedDelta row.input row.output).toList else []

def rowLog (conn : ConnId) (row : Entry) : List LogEvent :=
  (framesTo conn row.output.effects).map .frame ++
    (ownDeltas conn row).map fun delta => .ownDelta delta.1 delta.2

/-- Everything sent to `conn` in a history, with its own accepted deltas in place. -/
def logOf (conn : ConnId) (history : List Entry) : List LogEvent :=
  history.flatMap (rowLog conn)

/-- A delta with the sequence number under which the room applied it. -/
abbrev SequencedDelta := Nat × DeckId × Changes

def LogEvent.received : LogEvent → Option SequencedDelta
  | .frame (.delta serverSeq _ deck changes) => some (serverSeq, deck, changes)
  | _ => none

def receivedDeltas (log : List LogEvent) : List SequencedDelta := log.filterMap LogEvent.received

/-- The delta a row accepts from another connection once `conn` has had its welcome. -/
def othersDelta (conn : ConnId) (row : Entry) : Option SequencedDelta :=
  if (row.before.conns conn).isSome ∧ row.input.conn ≠ conn then
    (acceptedDelta row.input row.output).map fun delta => (row.after.serverSeq, delta)
  else none

def othersDeltas (conn : ConnId) (history : List Entry) : List SequencedDelta :=
  history.filterMap (othersDelta conn)

end DjApp.Server
