import Mathlib.Algebra.Group.Nat.Defs
import DjApp.Server.Protocol

/-! The room's messages as the objects it serialises, key by key. -/

set_option autoImplicit false

namespace DjApp.Server

def sourceUrl : String := "https://github.com/NagareNegishi/DJ-App"

def object (fields : List (String × JsValue)) : JsValue :=
  .obj (fields.map fun field => (js field.1, field.2))

def text (value : String) : JsValue := .str (js value)

/-- A double counts no further than 2^53. -/
def sequenceNumber (serverSeq : Nat) : JsValue := .number ((min serverSeq (2 ^ 53) : Nat) : ℚ)

def trackIdToJson : Option JsString → JsValue
  | none => .null
  | some units => .str units

def loopToJson : Option Loop → JsValue
  | none => .null
  | some loop =>
      object [("inSeconds", .number loop.inSeconds), ("outSeconds", .number loop.outSeconds)]

def deckToJson (deck : Deck) : JsValue :=
  object
    [("trackId", trackIdToJson deck.trackId), ("playing", .bool deck.playing),
      ("positionSeconds", .number deck.positionSeconds), ("gain", .number deck.gain),
      ("playbackRate", .number deck.playbackRate),
      ("pitchOffsetSemitones", .number deck.pitchOffsetSemitones),
      ("loop", loopToJson deck.loop), ("repeat", .bool deck.repeats)]

def decksToJson (decks : List (DeckId × Deck)) : JsValue :=
  object (decks.map fun deck => (deck.1.text, deckToJson deck.2))

/-- The present fields, in the order in which they were validated. -/
def changesFields (changes : Changes) : List (String × JsValue) :=
  (changes.trackId.toList.map fun trackId => ("trackId", trackIdToJson trackId)) ++
    (changes.playing.toList.map fun playing => ("playing", .bool playing)) ++
    (changes.repeats.toList.map fun repeats => ("repeat", .bool repeats)) ++
    (changes.positionSeconds.toList.map fun value => ("positionSeconds", .number value)) ++
    (changes.gain.toList.map fun value => ("gain", .number value)) ++
    (changes.playbackRate.toList.map fun value => ("playbackRate", .number value)) ++
    (changes.pitchOffsetSemitones.toList.map fun value => ("pitchOffsetSemitones", .number value)) ++
    changes.loop.toList.map fun loop => ("loop", loopToJson loop)

def peerToJson (peer : Peer) : JsValue :=
  object [("clientId", text peer.clientId.text), ("name", .str peer.name),
    ("role", text peer.role.text)]

def Frame.asJson : Frame → JsValue
  | .welcome clientId role serverSeq decks peers =>
      object [("type", text "welcome"), ("clientId", text clientId.text), ("role", text role.text),
        ("serverSeq", sequenceNumber serverSeq),
        ("snapshot", object [("decks", decksToJson decks)]),
        ("peers", .arr (peers.map peerToJson)), ("source", text sourceUrl)]
  | .peerJoined clientId name role =>
      object [("type", text "peerJoined"), ("clientId", text clientId.text), ("name", .str name),
        ("role", text role.text)]
  | .peerLeft clientId => object [("type", text "peerLeft"), ("clientId", text clientId.text)]
  | .roleChanged clientId role =>
      object [("type", text "roleChanged"), ("clientId", text clientId.text),
        ("role", text role.text)]
  | .delta serverSeq sourceClientId deck changes =>
      object [("type", text "delta"), ("serverSeq", sequenceNumber serverSeq),
        ("sourceClientId", text sourceClientId.text), ("deck", text deck.text),
        ("changes", object (changesFields changes))]
  | .snapshot serverSeq decks =>
      object [("type", text "snapshot"), ("serverSeq", sequenceNumber serverSeq),
        ("decks", decksToJson decks)]
  | .error code message =>
      object [("type", text "error"), ("code", text code.text), ("message", text message)]

/-- The frame as a client parses it. -/
def Frame.toVar (frame : Frame) : Var := JsValue.toVar frame.asJson

end DjApp.Server
