import Mathlib.Tactic.Linarith
import DjApp.Server.RateLimit
import DjApp.Server.Room

/-! Server configuration read from the environment. A malformed value is an error
rather than a default, and the error names the variable and its constraint. -/

set_option autoImplicit false

namespace DjApp.Server

open Library

/-- The variables that `loadConfig` reads; an unset one is `none`. -/
structure Env where
  host : Option JsString := none
  port : Option JsString := none
  djRoomCode : Option JsString := none
  djMaxClients : Option JsString := none
  logLevel : Option JsString := none

structure Config where
  host : JsString
  port : ℤ
  roomCode : JsString
  maxClients : ℤ
  logLevel : JsString
  rateLimit : RateLimit

def defaultHost : JsString := js "127.0.0.1"

def defaultPort : ℤ := 8765

def maxClientsCeiling : ℤ := defaultMaxClients * 8

def roomCodeMinLength : ℕ := 16

def logLevels : List JsString := [js "error", js "warn", js "info", js "debug"]

/-- White space and line terminators, as `trim` strips them. -/
def isWhiteSpace (unit : UInt16) : Bool :=
  let code := unit.toNat
  (0x09 ≤ code && code ≤ 0x0D) || code == 0x20 || code == 0xA0 || code == 0x1680 ||
    (0x2000 ≤ code && code ≤ 0x200A) || code == 0x2028 || code == 0x2029 || code == 0x202F ||
    code == 0x205F || code == 0x3000 || code == 0xFEFF

def trim (units : JsString) : JsString :=
  ((units.dropWhile isWhiteSpace).reverse.dropWhile isWhiteSpace).reverse

def isDigit (unit : UInt16) : Bool := 0x30 ≤ unit.toNat && unit.toNat ≤ 0x39

/-- The value of a nonempty run of decimal digits. -/
def parseDigits (units : JsString) : Option ℕ :=
  if units.isEmpty || !units.all isDigit then none
  else some (units.foldl (fun value unit => 10 * value + (unit.toNat - 0x30)) 0)

/-- The value of a text that matches `/^[+-]?\d+$/`. -/
def parseSigned : JsString → Option ℤ
  | [] => none
  | first :: rest =>
      if first == 0x2B then (parseDigits rest).map Int.ofNat
      else if first == 0x2D then (parseDigits rest).map fun value => -(value : ℤ)
      else (parseDigits (first :: rest)).map Int.ofNat

def maxSafeInteger : ℤ := 9007199254740991

def parseIntegerVar (raw : JsString) (min max : ℤ) (constraint : String) : Except String ℤ :=
  match parseSigned (trim raw) with
  | none => .error constraint
  | some parsed =>
      if |parsed| ≤ maxSafeInteger ∧ min ≤ parsed ∧ parsed ≤ max then .ok parsed
      else .error constraint

def loadHost (env : Env) : JsString :=
  match env.host with
  | some host => if host.isEmpty then defaultHost else host
  | none => defaultHost

def loadPort (env : Env) : Except String ℤ :=
  match env.port with
  | none => .ok defaultPort
  | some raw => parseIntegerVar raw 0 65535 "PORT must be an integer between 0 and 65535"

def loadRoomCode (env : Env) (randomUUID : JsString) : Except String JsString :=
  match env.djRoomCode with
  | none => .ok randomUUID
  | some roomCode =>
      if roomCode.length < roomCodeMinLength ∨ roomCodeMaxLength < roomCode.length then
        .error "DJ_ROOM_CODE must be between 16 and 64 characters"
      else .ok roomCode

def loadMaxClients (env : Env) : Except String ℤ :=
  match env.djMaxClients with
  | none => .ok defaultMaxClients
  | some raw =>
      parseIntegerVar raw 1 maxClientsCeiling "DJ_MAX_CLIENTS must be an integer between 1 and 64"

def loadLogLevel (env : Env) : Except String JsString :=
  match env.logLevel with
  | none => .ok (js "info")
  | some level =>
      if logLevels.contains level then .ok level
      else .error "LOG_LEVEL must be one of error, warn, info, debug"

def loadConfig (env : Env) (randomUUID : JsString) : Except String Config := do
  let port ← loadPort env
  let roomCode ← loadRoomCode env randomUUID
  let maxClients ← loadMaxClients env
  let logLevel ← loadLogLevel env
  .ok { host := loadHost env, port, roomCode, maxClients, logLevel, rateLimit := defaultRateLimit }

/-- The part of the configuration that a room is created with. -/
def Config.room (config : Config) : RoomConfig where
  roomCode := config.roomCode
  maxClients := config.maxClients.toNat

theorem parseIntegerVar_ok {raw : JsString} {min max : ℤ} {constraint : String} {value : ℤ}
    (accepted : parseIntegerVar raw min max constraint = .ok value) : min ≤ value ∧ value ≤ max := by
  unfold parseIntegerVar at accepted
  split at accepted
  · cases accepted
  · split at accepted
    · rename_i within
      cases accepted
      exact within.2
    · cases accepted

theorem loadMaxClients_ok {env : Env} {maxClients : ℤ}
    (loaded : loadMaxClients env = .ok maxClients) : 1 ≤ maxClients ∧ maxClients ≤ 64 := by
  unfold loadMaxClients at loaded
  split at loaded
  · cases loaded
    decide
  · exact parseIntegerVar_ok loaded

theorem loadRoomCode_ok {env : Env} {randomUUID roomCode : JsString}
    (uuid : randomUUID.length = 36) (loaded : loadRoomCode env randomUUID = .ok roomCode) :
    1 ≤ roomCode.length ∧ roomCode.length ≤ roomCodeMaxLength := by
  unfold loadRoomCode at loaded
  split at loaded
  · cases loaded
    simp [uuid, roomCodeMaxLength]
  · split at loaded
    · cases loaded
    · rename_i within
      cases loaded
      simp only [roomCodeMinLength, not_or, not_lt] at within
      exact ⟨by omega, within.2⟩

/-- What every configuration a server starts with satisfies. -/
structure Config.Admitted (config : Config) : Prop where
  maxClients : 1 ≤ config.maxClients ∧ config.maxClients ≤ 64
  roomCode : 1 ≤ config.roomCode.length ∧ config.roomCode.length ≤ roomCodeMaxLength

theorem loadConfig_ok {env : Env} {randomUUID : JsString} {config : Config}
    (uuid : randomUUID.length = 36) (loaded : loadConfig env randomUUID = .ok config) :
    config.Admitted := by
  obtain ⟨port, _, loaded⟩ := bind_eq_ok_iff.mp loaded
  obtain ⟨roomCode, code, loaded⟩ := bind_eq_ok_iff.mp loaded
  obtain ⟨maxClients, clients, loaded⟩ := bind_eq_ok_iff.mp loaded
  obtain ⟨logLevel, _, loaded⟩ := bind_eq_ok_iff.mp loaded
  cases loaded
  exact ⟨loadMaxClients_ok clients, loadRoomCode_ok uuid code⟩

end DjApp.Server
