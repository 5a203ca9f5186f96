import Mathlib.Data.List.Induction
import Mathlib.Tactic.Common

/-! Patches laid over a family of values: each key has the value that the last patch with the
key gives it. -/

set_option autoImplicit false

namespace DjApp.Library.Patches

variable {Key : Type} {Value : Key → Type}

/-- A patch gives new values to some keys. -/
abbrev Patch (Value : Key → Type) := (key : Key) → Option (Value key)

def lay (values : (key : Key) → Value key) (patch : Patch Value) : (key : Key) → Value key :=
  fun key => (patch key).getD (values key)

def layAll (values : (key : Key) → Value key) (patches : List (Patch Value)) :
    (key : Key) → Value key :=
  patches.foldl lay values

@[simp] theorem layAll_nil (values : (key : Key) → Value key) : layAll values [] = values := rfl

theorem layAll_concat (values : (key : Key) → Value key) (patches : List (Patch Value))
    (patch : Patch Value) : layAll values (patches ++ [patch]) = lay (layAll values patches) patch := by
  simp [layAll]

/-- The last of some patches that gives a value to a key. -/
def last (key : Key) (patches : List (Patch Value)) : Option (Patch Value) :=
  (patches.filter fun patch => (patch key).isSome).getLast?

theorem last_concat (key : Key) (patches : List (Patch Value)) (patch : Patch Value) :
    last key (patches ++ [patch]) = if (patch key).isSome then some patch else last key patches := by
  by_cases given : (patch key).isSome = true <;> simp [last, given]

theorem layAll_apply (values : (key : Key) → Value key) (patches : List (Patch Value))
    (key : Key) :
    layAll values patches key = ((last key patches).bind fun patch => patch key).getD (values key) := by
  induction patches using List.reverseRecOn with
  | nil => rfl
  | append_singleton patches patch ih =>
      rw [layAll_concat, last_concat, lay, ih]
      cases given : patch key with
      | none => simp
      | some value => simp [given]

end DjApp.Library.Patches
