import DjApp.Protocol.Json

/-! The wire-protocol constants of the sync server and the values its messages carry. -/

set_option autoImplicit false

namespace DjApp

inductive DeckId where
  | A
  | B
  deriving DecidableEq, Repr

theorem DeckId.forall_iff {holds : DeckId → Prop} : (∀ deck, holds deck) ↔ holds .A ∧ holds .B := by
  constructor
  · exact fun all => ⟨all .A, all .B⟩
  · rintro ⟨first, second⟩ deck
    cases deck with
    | A => exact first
    | B => exact second

instance {holds : DeckId → Prop} [DecidablePred holds] : Decidable (∀ deck, holds deck) :=
  decidable_of_iff _ DeckId.forall_iff.symm

def DeckId.text : DeckId → String
  | .A => "A"
  | .B => "B"

inductive Role where
  | controller
  | observer
  deriving DecidableEq, Repr

def Role.text : Role → String
  | .controller => "controller"
  | .observer => "observer"

/-- The deck a string names, if it is one of `DECK_IDS`. -/
def DeckId.ofJs? (units : JsString) : Option DeckId :=
  if units = js "A" then some .A else if units = js "B" then some .B else none

@[simp] theorem DeckId.ofJs?_text (deck : DeckId) : DeckId.ofJs? (js deck.text) = some deck := by
  cases deck <;> simp [DeckId.ofJs?, DeckId.text]

namespace Server

def protocolVersion : ℤ := 2

def maxFrameBytes : Nat := 4096

def nameMaxLength : Nat := 32

def roomCodeMaxLength : Nat := 64

def defaultMaxClients : Nat := 8

inductive ErrorCode where
  | badMessage
  | notController
  | controlTaken
  | rateLimited
  | unknownTrack
  deriving DecidableEq

def ErrorCode.text : ErrorCode → String
  | .badMessage => "bad-message"
  | .notController => "not-controller"
  | .controlTaken => "control-taken"
  | .rateLimited => "rate-limited"
  | .unknownTrack => "unknown-track"

namespace CloseCode

def badHandshake : Nat := 4000
def versionMismatch : Nat := 4001
def roomFull : Nat := 4002
def rateLimitBan : Nat := 4003
def wrongRoom : Nat := 4004
def internalError : Nat := 1011

end CloseCode

structure Range where
  min : ℚ
  max : ℚ

def Range.contains (range : Range) (value : ℚ) : Bool := range.min ≤ value && value ≤ range.max

namespace FieldRange

def positionSeconds : Range := ⟨0, 86400⟩
def gain : Range := ⟨0, 2⟩
def playbackRate : Range := ⟨1 / 2, 2⟩
def pitchOffsetSemitones : Range := ⟨-12, 12⟩
def loopSeconds : Range := ⟨0, 86400⟩

end FieldRange

structure Loop where
  inSeconds : ℚ
  outSeconds : ℚ
  deriving DecidableEq

/-- The state of one deck: the eight fields of the protocol's field reference. -/
structure Deck where
  trackId : Option JsString
  playing : Bool
  positionSeconds : ℚ
  gain : ℚ
  playbackRate : ℚ
  pitchOffsetSemitones : ℚ
  loop : Option Loop
  repeats : Bool
  deriving DecidableEq

def defaultDeckState : Deck where
  trackId := none
  playing := false
  positionSeconds := 0
  gain := 1
  playbackRate := 1
  pitchOffsetSemitones := 0
  loop := none
  repeats := true

/-- The normalised `changes` of a delta. An absent field is `none`; `trackId`
and `loop` may be present as null. -/
structure Changes where
  trackId : Option (Option JsString) := none
  playing : Option Bool := none
  positionSeconds : Option ℚ := none
  gain : Option ℚ := none
  playbackRate : Option ℚ := none
  pitchOffsetSemitones : Option ℚ := none
  loop : Option (Option Loop) := none
  repeats : Option Bool := none
  deriving DecidableEq

/-- `c-` and four hex digits: the two random bytes are the whole identity. -/
structure ClientId where
  draw : UInt16
  deriving DecidableEq

def ClientId.text (id : ClientId) : String :=
  let draw := id.draw.toNat
  String.ofList ['c', '-', Nat.digitChar (draw / 0x1000), Nat.digitChar (draw / 0x100 % 0x10),
    Nat.digitChar (draw / 0x10 % 0x10), Nat.digitChar (draw % 0x10)]

structure Peer where
  clientId : ClientId
  name : JsString
  role : Role
  deriving DecidableEq

/-- The messages the room sends. The welcome also carries the constant `source`. -/
inductive Frame where
  | welcome (clientId : ClientId) (role : Role) (serverSeq : Nat)
      (decks : List (DeckId × Deck)) (peers : List Peer)
  | peerJoined (clientId : ClientId) (name : JsString) (role : Role)
  | peerLeft (clientId : ClientId)
  | roleChanged (clientId : ClientId) (role : Role)
  | delta (serverSeq : Nat) (sourceClientId : ClientId) (deck : DeckId) (changes : Changes)
  | snapshot (serverSeq : Nat) (decks : List (DeckId × Deck))
  | error (code : ErrorCode) (message : String)
  deriving DecidableEq

private theorem digitChar_injective (left right : Fin 16)
    (same : Nat.digitChar left = Nat.digitChar right) : left = right := by
  revert left right
  decide

private theorem digitChar_inj {left right : Nat} (leftSmall : left < 16) (rightSmall : right < 16)
    (same : Nat.digitChar left = Nat.digitChar right) : left = right :=
  Fin.mk.inj (digitChar_injective ⟨left, leftSmall⟩ ⟨right, rightSmall⟩ same)

theorem ClientId.text_injective : Function.Injective ClientId.text := by
  intro left right same
  have leftBound := left.draw.toNat_lt
  have rightBound := right.draw.toNat_lt
  simp only [ClientId.text, String.ofList_inj, List.cons.injEq, true_and, and_true] at same
  obtain ⟨first, second, third, fourth⟩ := same
  have firstEq := digitChar_inj (by omega) (by omega) first
  have secondEq := digitChar_inj (by omega) (by omega) second
  have thirdEq := digitChar_inj (by omega) (by omega) third
  have fourthEq := digitChar_inj (by omega) (by omega) fourth
  have draws : left.draw.toNat = right.draw.toNat := by omega
  cases left
  cases right
  exact congrArg ClientId.mk (UInt16.toNat_inj.mp draws)

@[simp] theorem ClientId.text_inj {left right : ClientId} : left.text = right.text ↔ left = right :=
  ClientId.text_injective.eq_iff

end Server

end DjApp
