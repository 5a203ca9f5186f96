import DjApp.Server.Protocol

/-! Strict validation of inbound messages: a failure is the reason the server
gives for it, and nothing is coerced or clamped. -/

set_option autoImplicit false

namespace DjApp.Server

open Library

abbrev Fields := List (JsString × JsValue)

def hasField (fields : Fields) (key : String) : Bool := (fields.lookup (js key)).isSome

def hasExactKeys (fields : Fields) (keys : List String) : Bool :=
  fields.length == keys.length && keys.all (hasField fields)

inductive MessageType where
  | hello
  | claimControl
  | releaseControl
  | delta
  | requestSnapshot
  deriving DecidableEq

def MessageType.text : MessageType → String
  | .hello => "hello"
  | .claimControl => "claimControl"
  | .releaseControl => "releaseControl"
  | .delta => "delta"
  | .requestSnapshot => "requestSnapshot"

def messageTypes : List MessageType :=
  [.hello, .claimControl, .releaseControl, .delta, .requestSnapshot]

def fieldlessTypes : List MessageType := [.claimControl, .releaseControl, .requestSnapshot]

def changeFields : List String :=
  ["trackId", "playing", "positionSeconds", "gain", "playbackRate", "pitchOffsetSemitones",
    "loop", "repeat"]

/-- The code points of Unicode category Cf, as inclusive ranges. -/
def formatRanges : List (Nat × Nat) :=
  [(0xAD, 0xAD), (0x600, 0x605), (0x61C, 0x61C), (0x6DD, 0x6DD), (0x70F, 0x70F),
    (0x890, 0x891), (0x8E2, 0x8E2), (0x180E, 0x180E), (0x200B, 0x200F), (0x202A, 0x202E),
    (0x2060, 0x2064), (0x2066, 0x206F), (0xFEFF, 0xFEFF), (0xFFF9, 0xFFFB),
    (0x110BD, 0x110BD), (0x110CD, 0x110CD), (0x13430, 0x1343F), (0x1BCA0, 0x1BCA3),
    (0x1D173, 0x1D17A), (0xE0001, 0xE0001), (0xE0020, 0xE007F)]

/-- The class of `CONTROL_CHARS`: C0, DEL and C1 controls, and format characters. -/
def isControlChar (codePoint : Nat) : Bool :=
  codePoint ≤ 0x1F || (0x7F ≤ codePoint && codePoint ≤ 0x9F) ||
    formatRanges.any fun range => range.1 ≤ codePoint && codePoint ≤ range.2

def hasControlChars (units : JsString) : Bool := (Utf16.codePoints units).any isControlChar

/-- The character class of `TRACK_ID_PATTERN`: letters, digits, dot, underscore, hyphen. -/
def isTrackIdUnit (unit : UInt16) : Bool :=
  let code := unit.toNat
  (0x41 ≤ code && code ≤ 0x5A) || (0x61 ≤ code && code ≤ 0x7A) ||
    (0x30 ≤ code && code ≤ 0x39) || code == 0x2E || code == 0x5F || code == 0x2D

def matchesTrackIdPattern (units : JsString) : Bool :=
  1 ≤ units.length && units.length ≤ 64 && units.all isTrackIdUnit

def includesDotDot : JsString → Bool
  | first :: second :: rest =>
      (first == 0x2E && second == 0x2E) || includesDotDot (second :: rest)
  | _ => false

def isValidTrackId (units : JsString) : Bool :=
  matchesTrackIdPattern units && !(units == js "." || units == js ".." || includesDotDot units)

def validateNumericField (name : String) (range : Range) : JsValue → Except String ℚ
  | .num (.finite value) =>
      if range.contains value then .ok value else .error (name ++ " out of range")
  | _ => .error (name ++ " must be a finite number")

def validateBoolean (name : String) : JsValue → Except String Bool
  | .bool value => .ok value
  | _ => .error (name ++ " must be a boolean")

def validateTrackId : JsValue → Except String (Option JsString)
  | .null => .ok none
  | .str units => if isValidTrackId units then .ok (some units) else .error "invalid trackId"
  | _ => .error "invalid trackId"

def validateLoopBounds (bounds : Loop) : Except String (Option Loop) :=
  if !(FieldRange.loopSeconds.contains bounds.inSeconds &&
      FieldRange.loopSeconds.contains bounds.outSeconds) then
    .error "loop bounds out of range"
  -- Strict: a zero-length loop is not a loop.
  else if bounds.inSeconds < bounds.outSeconds then .ok (some bounds)
  else .error "loop inSeconds must be less than outSeconds"

def validateLoop : JsValue → Except String (Option Loop)
  | .null => .ok none
  | .obj fields =>
      if hasExactKeys fields ["inSeconds", "outSeconds"] then
        match fields.lookup (js "inSeconds"), fields.lookup (js "outSeconds") with
        | some (.num (.finite inSeconds)), some (.num (.finite outSeconds)) =>
            validateLoopBounds ⟨inSeconds, outSeconds⟩
        | _, _ => .error "loop bounds must be finite numbers"
      else .error "loop must have only inSeconds and outSeconds"
  | _ => .error "loop must be an object or null"

/-- The result of `validate` on a field that is there; an absent field passes. -/
def validateField {Value : Type} (fields : Fields) (key : String)
    (validate : JsValue → Except String Value) : Except String (Option Value) :=
  match fields.lookup (js key) with
  | none => .ok none
  | some value => (validate value).map some

/-- The fields of an object whose keys are known, checked in the order of the source. -/
def validateKnownChanges (fields : Fields) : Except String Changes := do
  let trackId ← validateField fields "trackId" validateTrackId
  let playing ← validateField fields "playing" (validateBoolean "playing")
  let repeats ← validateField fields "repeat" (validateBoolean "repeat")
  let positionSeconds ← validateField fields "positionSeconds"
    (validateNumericField "positionSeconds" FieldRange.positionSeconds)
  let gain ← validateField fields "gain" (validateNumericField "gain" FieldRange.gain)
  let playbackRate ← validateField fields "playbackRate"
    (validateNumericField "playbackRate" FieldRange.playbackRate)
  let pitchOffsetSemitones ← validateField fields "pitchOffsetSemitones"
    (validateNumericField "pitchOffsetSemitones" FieldRange.pitchOffsetSemitones)
  let loop ← validateField fields "loop" validateLoop
  if playing = some true ∧ positionSeconds = none then
    .error "playing:true requires positionSeconds"
  else
    .ok { trackId, playing, positionSeconds, gain, playbackRate, pitchOffsetSemitones, loop,
          repeats }

def validateChanges : JsValue → Except String Changes
  | .obj fields =>
      if fields.isEmpty then .error "changes must not be empty"
      else if fields.any fun field => !(changeFields.map js).contains field.1 then
        .error "unknown field in changes"
      else validateKnownChanges fields
  | _ => .error "changes must be an object"

def validateDelta : JsValue → Except String (DeckId × Changes)
  | .obj fields =>
      match fields.lookup (js "type") with
      | some (.str type) =>
          if type = js "delta" then
            if hasExactKeys fields ["type", "deck", "changes"] then
              match fields.lookup (js "deck") with
              | some (.str units) =>
                  match DeckId.ofJs? units with
                  | some deck => do
                      let changes ← validateChanges ((fields.lookup (js "changes")).getD .null)
                      .ok (deck, changes)
                  | none => .error "invalid deck"
              | _ => .error "invalid deck"
            else .error "malformed delta"
          else .error "malformed delta"
      | _ => .error "malformed delta"
  | _ => .error "malformed delta"

/-- What a hello must say to be let in. -/
structure Expected where
  protocolVersion : ℤ
  roomCode : JsString

structure Hello where
  protocolVersion : ℤ
  name : JsString
  room : JsString
  deriving DecidableEq

/-- The checks on a hello whose version is right; the room code comes last. -/
def validateHelloFields (fields : Fields) (expected : Expected) : Except String Hello :=
  if hasExactKeys fields ["type", "protocolVersion", "name", "room"] then
    match fields.lookup (js "name"), fields.lookup (js "room") with
    | some (.str name), some (.str room) =>
        if name.length < 1 || nameMaxLength < name.length then .error "malformed hello"
        else if hasControlChars name || !Utf16.isWellFormed name then .error "malformed hello"
        else if room.length < 1 || roomCodeMaxLength < room.length then .error "malformed hello"
        else if room = expected.roomCode then .ok ⟨expected.protocolVersion, name, room⟩
        else .error "wrong room"
    | _, _ => .error "malformed hello"
  else .error "malformed hello"

def validateHello (msg : JsValue) (expected : Expected) : Except String Hello :=
  match msg with
  | .obj fields =>
      match fields.lookup (js "type") with
      | some (.str type) =>
          if type = js "hello" then
            match fields.lookup (js "protocolVersion") with
            | some (.num (.finite version)) =>
                if version = expected.protocolVersion then validateHelloFields fields expected
                else .error "protocol version mismatch"
            | _ => .error "protocol version mismatch"
          else .error "malformed hello"
      | _ => .error "malformed hello"
  | _ => .error "malformed hello"

/-- A hello with the four keys it must have. -/
def helloMessage (protocolVersion : ℤ) (name room : JsString) : JsValue :=
  .obj [(js "type", .str (js "hello")), (js "protocolVersion", .number protocolVersion),
    (js "name", .str name), (js "room", .str room)]

/-- The own `type` of a message, when it is a string. -/
def typeField? : JsValue → Option JsString
  | .obj fields =>
      match fields.lookup (js "type") with
      | some (.str units) => some units
      | _ => none
  | _ => none

/-- The known type of a message, with no other field on a type that takes none. -/
def validateEnvelope : JsValue → Except String MessageType
  | .obj fields =>
      match fields.lookup (js "type") with
      | some (.str units) =>
          match messageTypes.find? fun type => units = js type.text with
          | none => .error "unknown message type"
          | some type =>
              if fieldlessTypes.contains type && !hasExactKeys fields ["type"] then
                .error "unexpected fields"
              else .ok type
      | _ => .error "missing type"
  | _ => .error "not an object"

end DjApp.Server
