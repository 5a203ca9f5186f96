import DjApp.Client.Ranges

/-! The client's codec: playback states, deltas and messages to and from parsed JSON. A
failure is the error the client reports for it. -/

set_option autoImplicit false

namespace DjApp.Client

abbrev Result := Except String

abbrev Properties := List (String × Var)

def hasProperty (fields : Properties) (name : String) : Bool := (fields.lookup name).isSome

/-- An absent property reads as void, like a null one. -/
def getProperty (fields : Properties) (name : String) : Var := (fields.lookup name).getD .null

def trackIdCharacters : List Char :=
  "ABCDEFGHIJKLMNOPQRSTUVWXYZabcdefghijklmnopqrstuvwxyz0123456789._-".toList

/-- `s.contains("..")`. -/
def containsDotDot : List Char → Bool
  | first :: second :: rest =>
      (first == '.' && second == '.') || containsDotDot (second :: rest)
  | _ => false

def isValidTrackId (s : String) : Bool :=
  if s.toList.isEmpty || 64 < s.toList.length then false
  else if !s.toList.all trackIdCharacters.contains then false
  else !(s = "." || s = ".." || containsDotDot s.toList)

def isPrintableNoControlChars (s : String) : Bool :=
  s.toList.all fun c => !(c.toNat ≤ 0x1F || (0x7F ≤ c.toNat && c.toNat ≤ 0x9F))

def isValidHelloName (name : String) : Bool :=
  !name.toList.isEmpty && name.toList.length ≤ 32 && isPrintableNoControlChars name

def isValidHelloRoom (room : String) : Bool :=
  !room.toList.isEmpty && room.toList.length ≤ 64

def isValidPeerName (name : String) : Bool := isValidHelloName name

def asFiniteNumber : Var → Option ℚ
  | .num (.finite value) => some value
  | _ => none

/-- Narrowing a finite double beyond the range of floats gives an infinity. -/
def asFiniteFloat (v : Var) : Option Single :=
  (asFiniteNumber v).bind fun value =>
    if |(Single.ofDouble value).value| < 2 ^ 128 then some (.ofDouble value) else none

def parseBool : Var → Result Bool
  | .bool value => .ok value
  | _ => .error "playing must be a boolean"

def parseFinite (field : String) (v : Var) : Result ℚ :=
  match asFiniteNumber v with
  | some value => .ok value
  | none => .error (field ++ " must be a finite number")

def parseFiniteFloat (field : String) (v : Var) : Result Single :=
  match asFiniteFloat v with
  | some value => .ok value
  | none => .error (field ++ " must be a finite number")

def parseTrackId : Var → Result String
  | .null => .ok ""
  | .str s => if isValidTrackId s then .ok s else .error "invalid trackId"
  | _ => .error "trackId must be a string or null"

def hasOnlyKnownKeys (fields : Properties) (allowed : List String) : Bool :=
  fields.all fun field => allowed.contains field.1

def parseLoopValue : Var → Result (Option LoopPoints)
  | .null => .ok none
  | .obj fields =>
      if !hasOnlyKnownKeys fields ["inSeconds", "outSeconds"] then .error "loop has unknown field"
      else if !(hasProperty fields "inSeconds" && hasProperty fields "outSeconds") then
        .error "loop missing inSeconds/outSeconds"
      else
        match asFiniteNumber (getProperty fields "inSeconds") with
        | none => .error "loop.inSeconds must be a finite number"
        | some inSeconds =>
            match asFiniteNumber (getProperty fields "outSeconds") with
            | none => .error "loop.outSeconds must be a finite number"
            | some outSeconds =>
                -- Clamping each end on its own could not repair the order later.
                if inSeconds < outSeconds then .ok (some ⟨inSeconds, outSeconds⟩)
                else .error "loop.inSeconds must be less than loop.outSeconds"
  | _ => .error "loop must be an object or null"

def parseProperty {Value : Type} (fields : Properties) (name : String)
    (parse : Var → Result Value) : Result (Option Value) :=
  match fields.lookup name with
  | none => .ok none
  | some v => (parse v).map some

/-- The field parsers shared by states and deltas, in the order of the source. -/
def parseFields (fields : Properties) (deck : DeckId) : Result StateDelta := do
  let trackId ← parseProperty fields "trackId" parseTrackId
  let playing ← parseProperty fields "playing" parseBool
  let positionSeconds ← parseProperty fields "positionSeconds" (parseFinite "positionSeconds")
  let gain ← parseProperty fields "gain" (parseFiniteFloat "gain")
  let playbackRate ← parseProperty fields "playbackRate" (parseFiniteFloat "playbackRate")
  let pitchOffsetSemitones ← parseProperty fields "pitchOffsetSemitones"
    (parseFiniteFloat "pitchOffsetSemitones")
  let loop ← parseProperty fields "loop" parseLoopValue
  let repeats ← parseProperty fields "repeat" parseBool
  .ok { deck, trackId, playing, positionSeconds, gain, playbackRate, pitchOffsetSemitones, loop,
        repeats }

def stateKeys : List String :=
  ["trackId", "playing", "positionSeconds", "gain", "playbackRate", "pitchOffsetSemitones",
    "loop", "repeat"]

/-- A missing field of a state keeps its default. -/
def playbackStateFromVar : Var → Result PlaybackState
  | .obj fields =>
      if !hasOnlyKnownKeys fields stateKeys then .error "unknown field in PlaybackState"
      else do
        let parsed ← parseFields fields .A
        .ok { trackId := parsed.trackId.getD ""
              playing := parsed.playing.getD false
              positionSeconds := parsed.positionSeconds.getD 0
              gain := parsed.gain.getD (.ofDouble 1)
              playbackRate := parsed.playbackRate.getD (.ofDouble 1)
              pitchOffsetSemitones := parsed.pitchOffsetSemitones.getD (.ofDouble 0)
              loop := parsed.loop.getD none
              repeats := parsed.repeats.getD true }
  | _ => .error "expected an object"

def deckFromString (s : String) : Option DeckId :=
  if s = "A" then some .A else if s = "B" then some .B else none

def stateDeltaFromVar : Var → Result StateDelta
  | .obj fields =>
      if !hasOnlyKnownKeys fields ("deck" :: stateKeys) then .error "unknown field in StateDelta"
      else
        match fields.lookup "deck" with
        | none => .error "deck is required"
        | some (.str s) =>
            match deckFromString s with
            | some deck => parseFields fields deck
            | none => .error "deck must be \"A\" or \"B\""
        | some _ => .error "deck must be a string"
  | _ => .error "expected an object"

def loopToVar : Option LoopPoints → Var
  | none => .null
  | some loop =>
      .obj [("inSeconds", .number loop.inSeconds), ("outSeconds", .number loop.outSeconds)]

def trackIdToVar (trackId : String) : Var := if trackId = "" then .null else .str trackId

/-- `toVar` of a state: every field is there. -/
def playbackStateToVar (state : PlaybackState) : Var :=
  .obj [("trackId", trackIdToVar state.trackId), ("playing", .bool state.playing),
    ("positionSeconds", .number state.positionSeconds), ("gain", .number state.gain.value),
    ("playbackRate", .number state.playbackRate.value),
    ("pitchOffsetSemitones", .number state.pitchOffsetSemitones.value),
    ("loop", loopToVar state.loop), ("repeat", .bool state.repeats)]

def deltaFields (delta : StateDelta) : Properties :=
  (delta.trackId.toList.map fun trackId => ("trackId", trackIdToVar trackId)) ++
    (delta.playing.toList.map fun playing => ("playing", .bool playing)) ++
    (delta.positionSeconds.toList.map fun value => ("positionSeconds", .number value)) ++
    (delta.gain.toList.map fun value => ("gain", .number value.value)) ++
    (delta.playbackRate.toList.map fun value => ("playbackRate", .number value.value)) ++
    (delta.pitchOffsetSemitones.toList.map fun value =>
      ("pitchOffsetSemitones", .number value.value)) ++
    (delta.loop.toList.map fun loop => ("loop", loopToVar loop)) ++
    delta.repeats.toList.map fun repeats => ("repeat", .bool repeats)

def stateDeltaToVar (delta : StateDelta) : Var :=
  .obj (("deck", .str delta.deck.text) :: deltaFields delta)

/-- The deck moves to the top level, everything else nests under `changes`. -/
def buildDelta (delta : StateDelta) : Var :=
  match stateDeltaToVar delta with
  | .obj flat =>
      .obj ([("type", .str "delta")] ++ flat.filter (·.1 == "deck") ++
        [("changes", .obj (flat.filter (·.1 != "deck")))])
  | _ => .obj [("type", .str "delta"), ("changes", .obj [])]

def kProtocolVersion : ℚ := 2

def buildHello (name room : String) : Result Var :=
  if !isValidHelloName name then
    .error "hello name must be 1-32 printable characters with no control characters"
  else if !isValidHelloRoom room then .error "hello room must be 1-64 characters"
  else
    .ok (.obj [("type", .str "hello"), ("protocolVersion", .number kProtocolVersion),
      ("name", .str name), ("room", .str room)])

def buildClaimControl : Var := .obj [("type", .str "claimControl")]

def buildReleaseControl : Var := .obj [("type", .str "releaseControl")]

def buildRequestSnapshot : Var := .obj [("type", .str "requestSnapshot")]

/-- The type of a message, empty if it has none. -/
def messageType : Var → String
  | .obj fields =>
      match fields.lookup "type" with
      | some (.str type) => type
      | _ => ""
  | _ => ""

/-- Reads `deck` and the keys of `changes` off a message, and nothing else. -/
def parseDeltaMessage : Var → Result StateDelta
  | .obj fields =>
      match fields.lookup "deck" with
      | none => .error "delta message is missing deck"
      | some deck =>
          match getProperty fields "changes" with
          | .obj changes =>
              -- A key of `changes` called `deck` replaces the one set first.
              stateDeltaFromVar (.obj (("deck", (changes.lookup "deck").getD deck) ::
                changes.filter (·.1 != "deck")))
          | _ => .error "delta message's changes must be an object"
  | _ => .error "delta message is missing deck"

def intMax : ℚ := 2 ^ 31 - 1

def messageServerSeq : Var → Option ℕ
  | .obj fields =>
      (fields.lookup "serverSeq").bind fun v =>
        (asFiniteNumber v).bind fun value =>
          if value < 0 ∨ (⌊value⌋ : ℚ) ≠ value ∨ intMax < value then none else some value.num.toNat
  | _ => none

end DjApp.Client
