import Mathlib.Logic.Equiv.Basic
import DjApp.Server.Transport

/-! The room code stays with those who have it: but for the hello that names it, no frame, no
close and no record of a server depends on which code it was given. -/

set_option autoImplicit false

namespace DjApp.Server

open Library

/-- A code that a hello may name. -/
def CodeAdmitted (code : JsString) : Prop := 1 ≤ code.length ∧ code.length ≤ roomCodeMaxLength

section Messages

variable (code other : JsString)

/-- The field with one code in the place of the other, if it is the room of a hello. -/
def rekeyField (field : JsString × JsValue) : JsString × JsValue :=
  match field.2 with
  | .str room => if field.1 = js "room" then (field.1, .str (Equiv.swap code other room)) else field
  | _ => field

def rekeyFields (fields : Fields) : Fields := fields.map (rekeyField code other)

/-- A message of somebody who takes one code for the other. -/
def rekeyMessage : JsValue → JsValue
  | .obj fields => .obj (rekeyFields code other fields)
  | msg => msg

theorem rekeyField_fst (field : JsString × JsValue) : (rekeyField code other field).1 = field.1 := by
  unfold rekeyField
  split
  · split <;> rfl
  · rfl

theorem lookup_rekeyFields (fields : Fields) (key : JsString) :
    (rekeyFields code other fields).lookup key =
      (fields.lookup key).map fun value => (rekeyField code other (key, value)).2 := by
  induction fields with
  | nil => rfl
  | cons field rest ih =>
      rw [rekeyFields, List.map_cons, ← rekeyFields]
      obtain ⟨name, value⟩ := field
      have kept := rekeyField_fst code other (name, value)
      by_cases same : key = name
      · subst same
        rw [List.lookup_cons, List.lookup_cons, kept]
        simp
      · rw [List.lookup_cons, List.lookup_cons, kept]
        simp only [beq_false_of_ne same, ih]

theorem lookup_rekeyFields_of_ne (fields : Fields) {key : String} (unlike : key ≠ "room") :
    (rekeyFields code other fields).lookup (js key) = fields.lookup (js key) := by
  have foreign : js key ≠ js "room" := fun same => unlike (js_injective same)
  have same (value : JsValue) : (rekeyField code other (js key, value)).2 = value := by
    unfold rekeyField
    split
    · rw [if_neg foreign]
    · rfl
  rw [lookup_rekeyFields]
  simp only [same, Option.map_id_fun', id]

theorem hasExactKeys_rekeyFields (fields : Fields) (keys : List String) :
    hasExactKeys (rekeyFields code other fields) keys = hasExactKeys fields keys := by
  have present : hasField (rekeyFields code other fields) = hasField fields := by
    funext key
    rw [hasField, lookup_rekeyFields, Option.isSome_map, hasField]
  have length : (rekeyFields code other fields).length = fields.length := List.length_map _
  simp only [hasExactKeys, length, present]

theorem validateDelta_rekeyMessage (msg : JsValue) :
    validateDelta (rekeyMessage code other msg) = validateDelta msg := by
  cases msg with
  | obj fields =>
      have kept {key : String} (unlike : key ≠ "room") :=
        lookup_rekeyFields_of_ne code other fields unlike
      simp only [rekeyMessage, validateDelta, hasExactKeys_rekeyFields,
        kept (show "type" ≠ "room" by decide), kept (show "deck" ≠ "room" by decide),
        kept (show "changes" ≠ "room" by decide)]
  | null | bool | num | str | arr => rfl

theorem validateEnvelope_rekeyMessage (msg : JsValue) :
    validateEnvelope (rekeyMessage code other msg) = validateEnvelope msg := by
  cases msg with
  | obj fields =>
      simp only [rekeyMessage, validateEnvelope, hasExactKeys_rekeyFields,
        lookup_rekeyFields_of_ne code other fields (show "type" ≠ "room" by decide)]
  | null | bool | num | str | arr => rfl

theorem typeField?_rekeyMessage (msg : JsValue) :
    typeField? (rekeyMessage code other msg) = typeField? msg := by
  cases msg with
  | obj fields =>
      simp only [rekeyMessage, typeField?,
        lookup_rekeyFields_of_ne code other fields (show "type" ≠ "room" by decide)]
  | null | bool | num | str | arr => rfl

theorem isPlainObject_rekeyMessage (msg : JsValue) :
    isPlainObject (rekeyMessage code other msg) = isPlainObject msg := by
  cases msg <;> rfl

variable {code other}

theorem swap_eq_other_iff (room : JsString) : Equiv.swap code other room = other ↔ room = code := by
  rw [Equiv.swap_apply_eq_iff, Equiv.swap_apply_right]

/-- A code that is admitted is taken for one that is. -/
theorem lengthRefused_swap (admitted : CodeAdmitted code) (otherAdmitted : CodeAdmitted other)
    (room : JsString) :
    (decide ((Equiv.swap code other room).length < 1) ||
        decide (roomCodeMaxLength < (Equiv.swap code other room).length)) =
      (decide (room.length < 1) || decide (roomCodeMaxLength < room.length)) := by
  have accepted {admitted : JsString} (bounds : CodeAdmitted admitted) :
      (decide (admitted.length < 1) || decide (roomCodeMaxLength < admitted.length)) = false := by
    simp only [Bool.or_eq_false_iff, decide_eq_false_iff_not, not_lt]
    exact bounds
  by_cases own : room = code
  · rw [own, Equiv.swap_apply_left, accepted admitted, accepted otherAdmitted]
  · by_cases theirs : room = other
    · rw [theirs, Equiv.swap_apply_right, accepted admitted, accepted otherAdmitted]
    · rw [Equiv.swap_apply_of_ne_of_ne own theirs]

/-- A hello that names the one code is to the one server what its double is to the other. -/
theorem validateHelloFields_rekeyFields (fields : Fields) (version : ℤ)
    (admitted : CodeAdmitted code) (otherAdmitted : CodeAdmitted other) :
    (validateHelloFields (rekeyFields code other fields) ⟨version, other⟩).map (·.name) =
      (validateHelloFields fields ⟨version, code⟩).map (·.name) := by
  simp only [validateHelloFields, hasExactKeys_rekeyFields,
    lookup_rekeyFields code other fields (js "room"),
    lookup_rekeyFields_of_ne code other fields (show "name" ≠ "room" by decide)]
  split
  · cases fields.lookup (js "name") with
    | none => rfl
    | some name =>
        cases name with
        | null | bool | num | arr | obj => rfl
        | str name =>
            cases fields.lookup (js "room") with
            | none => rfl
            | some value =>
                cases value with
                | null | bool | num | arr | obj => rfl
                | str room =>
                    simp only [Option.map_some, rekeyField, ↓reduceIte,
                      lengthRefused_swap admitted otherAdmitted, swap_eq_other_iff]
                    split
                    · rfl
                    · split
                      · rfl
                      · split
                        · rfl
                        · split <;> rfl
  · rfl

theorem validateHello_rekeyMessage (msg : JsValue) (version : ℤ) (admitted : CodeAdmitted code)
    (otherAdmitted : CodeAdmitted other) :
    (validateHello (rekeyMessage code other msg) ⟨version, other⟩).map (·.name) =
      (validateHello msg ⟨version, code⟩).map (·.name) := by
  cases msg with
  | obj fields =>
      have checked := validateHelloFields_rekeyFields fields version admitted otherAdmitted
      simp only [rekeyMessage, validateHello,
        lookup_rekeyFields_of_ne code other fields (show "type" ≠ "room" by decide),
        lookup_rekeyFields_of_ne code other fields (show "protocolVersion" ≠ "room" by decide)]
      generalize fields.lookup (js "type") = type
      generalize fields.lookup (js "protocolVersion") = protocolVersion
      split
      · split
        · split
          · split
            · exact checked
            · rfl
          · rfl
        · rfl
      · rfl
  | null | bool | num | str | arr => rfl

end Messages

section Calls

/-- A room of the same size and version with this code. -/
def RoomConfig.withCode (config : RoomConfig) (code : JsString) : RoomConfig :=
  { config with roomCode := code }

variable {code other : JsString} (admitted : CodeAdmitted code)
  (otherAdmitted : CodeAdmitted other) (config : RoomConfig) (room : Room)

include admitted otherAdmitted

theorem handleHello_rekeyMessage (conn : ConnId) (msg : JsValue) (draws : Draws) :
    handleHello (config.withCode other) room conn (rekeyMessage code other msg) draws =
      handleHello (config.withCode code) room conn msg draws := by
  have checked := validateHello_rekeyMessage msg config.protocolVersion admitted otherAdmitted
  unfold handleHello RoomConfig.withCode
  dsimp only
  cases mine : validateHello msg ⟨config.protocolVersion, code⟩ with
  | error reason =>
      cases theirs : validateHello (rekeyMessage code other msg) ⟨config.protocolVersion, other⟩ with
      | error otherReason =>
          rw [mine, theirs] at checked
          cases checked
          rfl
      | ok hello => rw [mine, theirs] at checked; cases checked
  | ok hello =>
      cases theirs : validateHello (rekeyMessage code other msg) ⟨config.protocolVersion, other⟩ with
      | error reason => rw [mine, theirs] at checked; cases checked
      | ok otherHello =>
          rw [mine, theirs] at checked
          have named : otherHello.name = hello.name := Except.ok.inj checked
          simp only [named]

/-- The call that the other server gets in its place. -/
def Call.rekey (code other : JsString) : Call → Call
  | .message conn msg draws => .message conn (rekeyMessage code other msg) draws
  | .disconnect conn => .disconnect conn

theorem Room.step_rekey (call : Call) :
    room.step (config.withCode other) (call.rekey code other) =
      room.step (config.withCode code) call := by
  cases call with
  | disconnect conn => rfl
  | message conn msg draws =>
      have hello := handleHello_rekeyMessage admitted otherAdmitted config room conn msg draws
      simp only [Room.step, Call.rekey, handleMessage, isPlainObject_rekeyMessage,
        typeField?_rekeyMessage, validateEnvelope_rekeyMessage, handleDelta,
        validateDelta_rekeyMessage, hello]

theorem Room.attempt_rekey (call : Call) (thrown : Option Fault) :
    room.attempt (config.withCode other) (call.rekey code other) thrown =
      room.attempt (config.withCode code) call thrown := by
  have stepped := Room.step_rekey admitted otherAdmitted config room call
  cases thrown with
  | none => exact stepped
  | some fault =>
      cases fault with
      | atOnce => rfl
      | after sent => exact stepped

end Calls

section Transports

/-- What leaves the server. -/
def Action.leaves : Action → Bool
  | .called _ _ => false
  | .closeSocket _ _ | .refuseSocket _ | .terminate _ | .ping _ | .transmit _ _ => true

def leaving (actions : List Action) : List Action := actions.filter Action.leaves

/-- Two servers end alike, and have let out the same. -/
structure LookAlike (ran other : Ran) : Prop where
  transport : ran.1 = other.1
  leaving : leaving ran.2 = leaving other.2

theorem LookAlike.refl (ran : Ran) : LookAlike ran ran := ⟨rfl, rfl⟩

theorem LookAlike.andThen {ran other : Ran} {next otherNext : Transport → Ran}
    (first : LookAlike ran other)
    (second : ∀ transport, LookAlike (next transport) (otherNext transport)) :
    LookAlike (ran.andThen next) (other.andThen otherNext) := by
  obtain ⟨transport, left⟩ := first
  have after := second other.1
  refine ⟨?_, ?_⟩
  · simp only [Ran.andThen, transport]
    exact after.transport
  · simp only [Ran.andThen, Server.leaving, List.filter_append] at left ⊢
    rw [left, transport]
    exact congrArg _ after.leaving

/-- A server that was given this code. -/
def TransportConfig.withCode (config : TransportConfig) (code : JsString) : TransportConfig :=
  { config with room := config.room.withCode code }

/-- The event that the other server sees in its place. -/
def TransportEvent.rekey (code other : JsString) : TransportEvent → TransportEvent
  | .text conn now parsed draws thrown =>
      .text conn now (parsed.map (rekeyMessage code other)) draws thrown
  | event => event

def TransportInput.rekey (code other : JsString) (input : TransportInput) : TransportInput :=
  { input with event := input.event.rekey code other }

variable {code other : JsString} (admitted : CodeAdmitted code)
  (otherAdmitted : CodeAdmitted other) (config : TransportConfig) (fl : ℚ → ℚ)

namespace Transport

variable (transport : Transport) (conn : ConnId) (sockets : ConnId → Frame → SocketState)

include admitted otherAdmitted

theorem callRoom_rekey (call : Call) (thrown : Option Fault) :
    LookAlike (transport.callRoom sockets (config.withCode other) (call.rekey code other) thrown)
      (transport.callRoom sockets (config.withCode code) call thrown) := by
  have attempted := Room.attempt_rekey admitted otherAdmitted config.room transport.room call thrown
  unfold callRoom TransportConfig.withCode
  dsimp only
  rw [attempted]
  apply LookAlike.andThen
  · exact ⟨rfl, rfl⟩
  · exact fun next => .refl _

theorem serve_rekey (parsed : Option JsValue) (draws : Draws) (thrown : Option Fault) :
    LookAlike
      (transport.serve conn sockets (config.withCode other)
        (parsed.map (rekeyMessage code other)) draws thrown)
      (transport.serve conn sockets (config.withCode code) parsed draws thrown) := by
  cases parsed with
  | none => exact .refl _
  | some msg =>
      let call := Call.message conn msg draws
      have called := callRoom_rekey admitted otherAdmitted config transport sockets call thrown
      have stepped := Room.step_rekey admitted otherAdmitted config.room transport.room call
      unfold serve handleParsed
      dsimp only [Option.map_some]
      cases thrown with
      | some fault => exact called.andThen fun next => .refl _
      | none =>
          apply called.andThen
          intro next
          have judged : (transport.room.step (config.withCode other).room
              (.message conn (rekeyMessage code other msg) draws)).2.result =
                (transport.room.step (config.withCode code).room call).2.result :=
            congrArg (fun handled => handled.2.result) stepped
          rw [judged]
          exact .refl _

theorem onText_rekey (now : ℤ) (parsed : Option JsValue) (draws : Draws) (thrown : Option Fault) :
    LookAlike
      (transport.onText conn sockets (config.withCode other) fl now
        (parsed.map (rekeyMessage code other)) draws thrown)
      (transport.onText conn sockets (config.withCode code) fl now parsed draws thrown) := by
  unfold onText
  split
  · exact .refl _
  · rename_i record _
    split
    · exact .refl _
    · apply LookAlike.andThen (.refl _)
      intro next
      have served := serve_rekey admitted otherAdmitted config next conn sockets parsed draws thrown
      unfold TransportConfig.withCode at served ⊢
      cases (Server.charge fl config.rateLimit record.toRecord now).2.served with
      | true => exact served
      | false => exact .refl _

theorem onClose_rekey :
    LookAlike (transport.onClose conn sockets (config.withCode other))
      (transport.onClose conn sockets (config.withCode code)) := by
  unfold onClose
  split
  · exact .refl _
  · exact callRoom_rekey admitted otherAdmitted config _ sockets (.disconnect conn) none

theorem step_rekey (input : TransportInput) :
    LookAlike (transport.step (config.withCode other) fl (input.rekey code other))
      (transport.step (config.withCode code) fl input) := by
  obtain ⟨event, sockets⟩ := input
  cases event with
  | text conn now parsed draws thrown =>
      exact onText_rekey admitted otherAdmitted config fl transport conn sockets now parsed draws thrown
  | socketClose conn => exact onClose_rekey admitted otherAdmitted config transport conn sockets
  | connection | binary | ping | pong | error | throws | helloTimeout | terminateTimeout
  | heartbeat | shutdown => exact .refl _

end Transport

/-- Two servers of different codes, each met by people who take its own code for the code, run
alike: what leaves them is the same, event by event, and so is all that they keep. -/
theorem room_code_secret (admitted : CodeAdmitted code) (otherAdmitted : CodeAdmitted other)
    (inputs : List TransportInput) :
    (transportTrace (config.withCode other) fl (inputs.map (·.rekey code other))).map
          (fun row => leaving row.output) =
        (transportTrace (config.withCode code) fl inputs).map (fun row => leaving row.output) ∧
      transportAfter (config.withCode other) fl (inputs.map (·.rekey code other)) =
        transportAfter (config.withCode code) fl inputs := by
  unfold transportTrace transportAfter
  generalize Transport.createServer = transport
  induction inputs generalizing transport with
  | nil => exact ⟨rfl, rfl⟩
  | cons input rest ih =>
      obtain ⟨same, left⟩ :=
        Transport.step_rekey admitted otherAdmitted config fl transport input
      obtain ⟨shown, ends⟩ := ih (transport.step (config.withCode code) fl input).1
      rw [List.map_cons]
      refine ⟨?_, ?_⟩
      · simp only [Machine.trace, Machine.entry, List.map_cons, same, left, shown]
      · simp only [Machine.run, same]
        exact ends

def passphrase : JsString := js "correct horse battery"

def otherPassphrase : JsString := js "a quite other secret"

def guessedEvening : List TransportInput :=
  [.connection 0, .text 0 1 (some (helloMessage 2 (js "Ana") passphrase)) (fun _ => ⟨7⟩) none,
    .connection 2, .text 1 3 (some (helloMessage 2 (js "Bo") (js "let me in"))) (fun _ => ⟨8⟩)
      none].map fun event => ⟨event, fun _ _ => .writable⟩

theorem room_code_secret_guessed :
    (transportTrace ((⟨8, defaultRateLimit, ⟨passphrase, 8, 2⟩⟩ : TransportConfig).withCode
          otherPassphrase) id (guessedEvening.map (·.rekey passphrase otherPassphrase))).map
        (fun row => leaving row.output) =
      (transportTrace ((⟨8, defaultRateLimit, ⟨passphrase, 8, 2⟩⟩ : TransportConfig).withCode
          passphrase) id guessedEvening).map (fun row => leaving row.output) :=
  (room_code_secret _ id ⟨by decide, by decide⟩ ⟨by decide, by decide⟩ guessedEvening).1

end Transports

end DjApp.Server
