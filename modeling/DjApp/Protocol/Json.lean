import Mathlib.Data.Rat.Defs
import DjApp.Library.Utf16

/-! JSON values as both programs see them: the server's strings are UTF-16, the
client's are Unicode text. The server prints numbers in full; the digits that the client's
writer prints for a number are a parameter. -/

set_option autoImplicit false

namespace DjApp

open Library

/-- A string of the server program: UTF-16 code units. -/
abbrev JsString := List UInt16

def js (text : String) : JsString := Utf16.encode text.toList

theorem js_injective : Function.Injective js := fun _ _ same =>
  String.toList_inj.mp (Utf16.encode_injective same)

@[simp] theorem js_inj {left right : String} : js left = js right ↔ left = right :=
  js_injective.eq_iff

@[simp] theorem js_beq (left right : String) : (js left == js right) = (left == right) := by
  by_cases same : left = right <;> simp [same]

/-- The Unicode text the client makes of a string it receives. -/
def JsString.toText (units : JsString) : String := String.ofList (Utf16.decode units)

@[simp] theorem toText_js (text : String) : (js text).toText = text := by
  simp [JsString.toText, js]

/-- A number of the server program. Both signs of zero are the one zero, as for `===`. -/
inductive JsNumber where
  | finite (value : ℚ)
  | infinite (negative : Bool)
  | nan
  deriving DecidableEq

/-- JSON values over a type of strings. An object is the list of its own properties. -/
inductive Json (Str : Type) where
  | null
  | bool (value : Bool)
  | num (value : JsNumber)
  | str (value : Str)
  | arr (items : List (Json Str))
  | obj (fields : List (Str × Json Str))

abbrev JsValue := Json JsString

/-- A parsed value of the client program. -/
abbrev Var := Json String

namespace Json

variable {Str Other : Type}

mutual

def mapStr (convert : Str → Other) : Json Str → Json Other
  | .null => .null
  | .bool value => .bool value
  | .num value => .num value
  | .str value => .str (convert value)
  | .arr items => .arr (mapItems convert items)
  | .obj fields => .obj (mapFields convert fields)

def mapItems (convert : Str → Other) : List (Json Str) → List (Json Other)
  | [] => []
  | item :: rest => mapStr convert item :: mapItems convert rest

def mapFields (convert : Str → Other) : List (Str × Json Str) → List (Other × Json Other)
  | [] => []
  | (key, value) :: rest => (convert key, mapStr convert value) :: mapFields convert rest

end

mutual

/-- The value with another in place of each finite number. -/
def mapNumbers (read : ℚ → ℚ) : Json Str → Json Str
  | .null => .null
  | .bool value => .bool value
  | .num (.finite value) => .num (.finite (read value))
  | .num value => .num value
  | .str value => .str value
  | .arr items => .arr (mapNumbersItems read items)
  | .obj fields => .obj (mapNumbersFields read fields)

def mapNumbersItems (read : ℚ → ℚ) : List (Json Str) → List (Json Str)
  | [] => []
  | item :: rest => mapNumbers read item :: mapNumbersItems read rest

def mapNumbersFields (read : ℚ → ℚ) : List (Str × Json Str) → List (Str × Json Str)
  | [] => []
  | (key, value) :: rest => (key, mapNumbers read value) :: mapNumbersFields read rest

end

mutual

/-- The finite numbers of a value. -/
def numbers : Json Str → List ℚ
  | .num (.finite value) => [value]
  | .null | .bool _ | .num _ | .str _ => []
  | .arr items => itemNumbers items
  | .obj fields => fieldNumbers fields

def itemNumbers : List (Json Str) → List ℚ
  | [] => []
  | item :: rest => numbers item ++ itemNumbers rest

def fieldNumbers : List (Str × Json Str) → List ℚ
  | [] => []
  | (_, value) :: rest => numbers value ++ fieldNumbers rest

end

mutual

theorem mapNumbers_of_fixed {read : ℚ → ℚ} :
    ∀ {value : Json Str}, (∀ number ∈ value.numbers, read number = number) →
      value.mapNumbers read = value
  | .null, _ | .bool _, _ | .str _, _ => rfl
  | .num (.finite value), fixed => by
      have kept := fixed value (by simp [numbers])
      rw [mapNumbers, kept]
  | .num (.infinite _), _ | .num .nan, _ => rfl
  | .arr items, fixed => by
      rw [mapNumbers, mapNumbersItems_of_fixed fixed]
  | .obj fields, fixed => by
      rw [mapNumbers, mapNumbersFields_of_fixed fixed]

theorem mapNumbersItems_of_fixed {read : ℚ → ℚ} :
    ∀ {items : List (Json Str)}, (∀ number ∈ itemNumbers items, read number = number) →
      mapNumbersItems read items = items
  | [], _ => rfl
  | item :: rest, fixed => by
      rw [itemNumbers, List.forall_mem_append] at fixed
      rw [mapNumbersItems, mapNumbers_of_fixed fixed.1, mapNumbersItems_of_fixed fixed.2]

theorem mapNumbersFields_of_fixed {read : ℚ → ℚ} :
    ∀ {fields : List (Str × Json Str)}, (∀ number ∈ fieldNumbers fields, read number = number) →
      mapNumbersFields read fields = fields
  | [], _ => rfl
  | (key, value) :: rest, fixed => by
      rw [fieldNumbers, List.forall_mem_append] at fixed
      rw [mapNumbersFields, mapNumbers_of_fixed fixed.1, mapNumbersFields_of_fixed fixed.2]

end

mutual

/-- The strings of a value, the keys of its objects among them. -/
def strings : Json Str → List Str
  | .null | .bool _ | .num _ => []
  | .str value => [value]
  | .arr items => itemStrings items
  | .obj fields => fieldStrings fields

def itemStrings : List (Json Str) → List Str
  | [] => []
  | item :: rest => strings item ++ itemStrings rest

def fieldStrings : List (Str × Json Str) → List Str
  | [] => []
  | (key, value) :: rest => key :: (strings value ++ fieldStrings rest)

end

theorem mem_itemStrings {items : List (Json Str)} {value : Str} :
    value ∈ itemStrings items ↔ ∃ item ∈ items, value ∈ item.strings := by
  induction items with
  | nil => simp [itemStrings]
  | cons item rest ih => simp [itemStrings, ih]

theorem mem_fieldStrings {fields : List (Str × Json Str)} {value : Str} :
    value ∈ fieldStrings fields ↔ ∃ field ∈ fields, value = field.1 ∨ value ∈ field.2.strings := by
  induction fields with
  | nil => simp [fieldStrings]
  | cons field rest ih => simp [fieldStrings, ih, or_assoc]

def number (value : ℚ) : Json Str := .num (.finite value)

end Json

/-- A computation that may fail succeeds exactly when each of its stages does. -/
theorem bind_eq_ok_iff {Error Value Result : Type} {source : Except Error Value}
    {continuation : Value → Except Error Result} {result : Result} :
    source >>= continuation = .ok result ↔
      ∃ value, source = .ok value ∧ continuation value = .ok result := by
  cases source with
  | error error => simp [bind, Except.bind]
  | ok value => simp [bind, Except.bind]

/-- What the client parses from the text the server serialised. -/
def JsValue.toVar (value : JsValue) : Var := value.mapStr JsString.toText

/-- A value of the client as one of the server, each number the same. -/
def Var.asJs (value : Var) : JsValue := value.mapStr js

/-- What the server parses from the text the client serialised. `digits` takes a number to
the one that its printed digits stand for. -/
def Var.toJs (digits : ℚ → ℚ) (value : Var) : JsValue := Var.asJs (value.mapNumbers digits)

/-- The digits of every number of the value stand for that number itself. -/
def Var.Exact (digits : ℚ → ℚ) (value : Var) : Prop :=
  ∀ number ∈ value.numbers, digits number = number

instance (digits : ℚ → ℚ) (value : Var) : Decidable (value.Exact digits) :=
  inferInstanceAs (Decidable (∀ number ∈ value.numbers, digits number = number))

theorem Var.toJs_of_exact {digits : ℚ → ℚ} {value : Var} (exact : value.Exact digits) :
    value.toJs digits = value.asJs := by
  rw [Var.toJs, Json.mapNumbers_of_fixed exact]

end DjApp
